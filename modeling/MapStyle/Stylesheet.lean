import MapStyle.Layer
import MapStyle.Log
import MapStyle.Recipe

/-
  This file defines stylesheets that are being built, and the
  actions on a stylesheet and on the layer at work. A failing
  action keeps what was done before it failed.

  Key definitions include:
    * `Stylesheet`
    * `Session`
    * `Workbench`
    * `Build`
    * `Build.set`
    * `Build.refine`
    * `Build.cascade`
    * `Sheet.layer`
-/

namespace MapStyle

------------------------------------------------------------
-- Stylesheets
------------------------------------------------------------

/-
  A stylesheet: the properties of its document, its sources,
  its layers in order, and the extensions of its vocabulary.
-/
structure Stylesheet where
  properties : Bag Value
  sources : Sources
  layers : List Layer
  extensions : Bag Recipe

namespace Stylesheet

/- The stylesheet with nothing in it. -/
def empty : Stylesheet :=
  ⟨.empty, .empty, [], .empty⟩

instance : Inhabited Stylesheet :=
  ⟨empty⟩

/- Set a property of the document. -/
def setProperty
    (sheet : Stylesheet)
    (name : String)
    (value : Value) : Stylesheet :=
  { sheet with properties := sheet.properties.insert name value }

/- Declare a source. -/
def declareSource
    (sheet : Stylesheet)
    (name : String)
    (options : List (String × Value)) : Stylesheet :=
  { sheet with
    sources := sheet.sources.insert name (Bag.ofList options) }

/- Register an extension. -/
def register
    (sheet : Stylesheet)
    (name : String)
    (recipe : Recipe) : Stylesheet :=
  { sheet with extensions := sheet.extensions.insert name recipe }

/- Add layers at the end. -/
def append
    (sheet : Stylesheet)
    (layers : List Layer) : Stylesheet :=
  { sheet with layers := sheet.layers ++ layers }

/- Add a layer in front of the layers from a place on. -/
def insertAt
    (sheet : Stylesheet)
    (place : Nat)
    (layer : Layer) : Stylesheet :=
  { sheet with
    layers :=
      sheet.layers.take place ++ layer :: sheet.layers.drop place }

end Stylesheet

------------------------------------------------------------
-- Sessions and workbenches
------------------------------------------------------------

/- A stylesheet with what has been logged. -/
structure Session where
  sheet : Stylesheet
  log : Array Event

/- A layer that is being built, and the stylesheet around it. -/
structure Workbench where
  layer : Layer
  sheet : Stylesheet
  log : Array Event

/- Actions on a stylesheet. -/
abbrev Sheet (ε α : Type) :=
  EStateM ε Session α

/- Actions on the layer that is being built. -/
abbrev Build (ε α : Type) :=
  EStateM ε Workbench α

/- The events of the creation of a layer. -/
def Layer.creationEvents (layer : Layer) : List Event :=
  if layer.has "source" then [] else [.noSource layer.id]

------------------------------------------------------------
-- Layers at work
------------------------------------------------------------

namespace Build

variable {ε α : Type}

/- Log the events of a computation and take its outcome. -/
def traced (t : Traced ε α) : Build ε α :=
  fun w =>
    let w := { w with log := w.log ++ t.events }
    match t.outcome with
    | .ok a => .ok a w
    | .error e => .error e w

/- Log one event. -/
def emit (event : Event) : Build ε Unit :=
  fun w => .ok () { w with log := w.log.push event }

/- Change the layer. -/
def modifyLayer (change : Layer → Layer) : Build ε Unit :=
  fun w => .ok () { w with layer := change w.layer }

/- The event of recording a property under a condition. -/
def recordEvent
    (layer : Layer)
    (condition : Expression)
    (key : String) : Event :=
  match layer.cascades.getLast? with
  | some last =>
      if last.condition.same condition then
        .amended layer.id condition key
      else
        .begun layer.id condition key
  | none => .begun layer.id condition key

/- The events of an assignment. -/
def setEvents
    (layer : Layer)
    (name : String) : List Event :=
  match layer.active with
  | some condition =>
      [recordEvent layer condition (Spelling.underscored name)]
  | none => []

/- Assign a property; a rejected assignment changes nothing. -/
def set
    (name : String)
    (value : Value) : Build CompileError Unit :=
  fun w =>
    let log := w.log ++ setEvents w.layer name
    match w.layer.set name value with
    | .ok layer => .ok () { w with layer := layer, log := log }
    | .error e => .error e { w with log := log }

/- Name the layer. -/
def rename (name : String) : Build ε Unit :=
  modifyLayer fun layer => layer.put "id" (.text name)

/- Keep the layer out of the document. -/
def suppress : Build ε Unit :=
  modifyLayer fun layer => { layer with written := false }

/- Set the condition of the layer; no arguments clear it. -/
def filter (args : List Value) : Build ε Unit :=
  modifyLayer fun layer =>
    { layer with filter := Expression.condition? args }

/- Set the condition of direct children; no arguments clear it. -/
def uncascaded (args : List Value) : Build ε Unit :=
  modifyLayer fun layer =>
    { layer with uncascaded := Expression.condition? args }

/-
  Run a body with assignments recorded under a condition.
  Without arguments they are plain assignments. Afterwards no
  condition is active.
-/
def cascade
    (args : List Value)
    (body : Build ε α) : Build ε α :=
  fun w =>
    let begun :=
      { w with
        layer :=
          { w.layer with active := Expression.condition? args } }
    match body begun with
    | .ok a v =>
        .ok a { v with layer := { v.layer with active := none } }
    | .error e v =>
        .error e { v with layer := { v.layer with active := none } }

/- The events of the creation of siblings. -/
def siblingEvents
    (child : Layer)
    (sources : Sources)
    (count : Nat) : List Event :=
  (List.range count).flatMap fun index =>
    (child.derive (Refinement.siblingId child index)
      sources).creationEvents

/-
  Derive a refined layer. Its body works on the child; then
  the child and its siblings are added to the stylesheet,
  after everything that the body has added. If the body fails,
  the child is dropped.
-/
def refine
    (args : List Value)
    (body : Build ε α) : Build ε α :=
  fun w =>
    let r := w.layer.refine args w.sheet.sources
    let begun : Workbench :=
      { layer := r.child
        sheet := w.sheet
        log := w.log ++ r.child.creationEvents }
    match body begun with
    | .error e v => .error e { v with layer := r.parent }
    | .ok a v =>
        let sources := v.sheet.sources
        let siblings := r.siblings v.layer sources
        let log :=
          v.log ++ siblingEvents v.layer sources siblings.length
        let event :=
          Event.derived r.parent.id v.layer.id siblings.length
        .ok a
          { layer := r.parent
            sheet := v.sheet.append (v.layer :: siblings)
            log := log.push event }

end Build

------------------------------------------------------------
-- New layers
------------------------------------------------------------

namespace Sheet

variable {ε α : Type}

/- Log the events of a computation and take its outcome. -/
def traced (t : Traced ε α) : Sheet ε α :=
  fun s =>
    let s := { s with log := s.log ++ t.events }
    match t.outcome with
    | .ok a => .ok a s
    | .error e => .error e s

/- Change the stylesheet. -/
def modifySheet (change : Stylesheet → Stylesheet) : Sheet ε Unit :=
  fun s => .ok () { s with sheet := change s.sheet }

/-
  Define a layer. It goes in front of the layers that its body
  derives. If the body fails, it is dropped.
-/
def layer
    (id : String)
    (options : List (String × Value))
    (body : Build ε α) : Sheet ε α :=
  fun s =>
    let layer := Layer.create id options s.sheet.sources
    let begun : Workbench :=
      { layer := layer
        sheet := s.sheet
        log := s.log ++ layer.creationEvents }
    match body begun with
    | .ok a w =>
        .ok a
          { sheet :=
              w.sheet.insertAt s.sheet.layers.length w.layer
            log := w.log }
    | .error e w => .error e { sheet := w.sheet, log := w.log }

end Sheet

end MapStyle
