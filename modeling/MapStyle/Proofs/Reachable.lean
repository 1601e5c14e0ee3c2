import MapStyle.Proofs.Frame
import MapStyle.Proofs.ProgramRun
import MapStyle.Proofs.Sweep

/-
  The stylesheets that operations lead to. Work on a layer is
  a relation that knows nothing of statements, steps or logs:
  any sequence of assignments and the like, with refinements
  and cascades whose bodies are work again, finished or given
  up. Whatever a text or a recipe does is such work.

  Key definitions include:
    * `Layer.Works`
    * `Build.IsWork`
    * `Stylesheet.Reachable`
    * `Layer.Reachable`
    * `Layer.Preserved`

  Main statements:
    * `Build.closed_isWork`
    * `Layer.Preserved.of_mem`
    * `Layer.Preserved.reachable`
    * `Sheet.closed_leadsOn`
    * `Sheet.leadsOn_load`
    * `Sheet.reachable_of_load`
-/

namespace MapStyle

------------------------------------------------------------
-- Work on a layer
------------------------------------------------------------

/-
  What a layer at work and the stylesheet around it can
  become. The body of a refinement works on the child, and
  adds its siblings if it is finished; that of a cascade works
  on the layer itself.
-/
inductive Layer.Works :
    Layer → Stylesheet → Layer → Stylesheet → Prop
  | refl (layer : Layer) (sheet : Stylesheet) :
      Works layer sheet layer sheet
  | trans
    {layer middle last : Layer}
    {sheet between reached : Stylesheet}
    (hFirst : Works layer sheet middle between)
    (hSecond : Works middle between last reached) :
      Works layer sheet last reached
  | set
    {layer next : Layer}
    (sheet : Stylesheet)
    {name : String}
    {value : Value}
    (hSet : layer.set name value = .ok next) :
      Works layer sheet next sheet
  | rename
    (layer : Layer)
    (sheet : Stylesheet)
    (name : String) :
      Works layer sheet (layer.put "id" (.text name)) sheet
  | suppress (layer : Layer) (sheet : Stylesheet) :
      Works layer sheet { layer with written := false } sheet
  | filter
    (layer : Layer)
    (sheet : Stylesheet)
    (args : List Value) :
      Works layer sheet
        { layer with filter := Expression.condition? args }
        sheet
  | uncascaded
    (layer : Layer)
    (sheet : Stylesheet)
    (args : List Value) :
      Works layer sheet
        { layer with uncascaded := Expression.condition? args }
        sheet
  | refine
    {layer child : Layer}
    {sheet reached : Stylesheet}
    (args : List Value)
    (hBody :
      Works (layer.refine args sheet.sources).child sheet child
        reached) :
      Works layer sheet
        (layer.refine args sheet.sources).parent
        (reached.append
          (child ::
            (layer.refine args sheet.sources).siblings child
              reached.sources))
  | giveUp
    {layer child : Layer}
    {sheet reached : Stylesheet}
    (args : List Value)
    (hBody :
      Works (layer.refine args sheet.sources).child sheet child
        reached) :
      Works layer sheet
        (layer.refine args sheet.sources).parent reached
  | cascade
    {layer last : Layer}
    {sheet reached : Stylesheet}
    (args : List Value)
    (hBody :
      Works { layer with active := Expression.condition? args }
        sheet last reached) :
      Works layer sheet { last with active := none } reached

namespace Build

variable {ε α β : Type}

/- An action that is work, whether it succeeds or fails. -/
def IsWork (action : Build ε α) : Prop :=
  ∀ w,
    Layer.Works w.layer w.sheet (after action w).layer
      (after action w).sheet

theorem isWork_bind
    {first : Build ε α}
    {next : α → Build ε β}
    (hFirst : IsWork first)
    (hNext : ∀ a, IsWork (next a)) :
    IsWork (first >>= next) :=
  related_after_bind
    (fun w v => Layer.Works w.layer w.sheet v.layer v.sheet)
    Layer.Works.trans hFirst hNext

theorem after_settled
    {ε' : Type}
    (action : Build ε α)
    (w : Workbench) :
    after (settled action : Build ε' (Except ε α)) w =
      after action w := by
  unfold after settled
  cases action w with
  | ok a v => rfl
  | error e v => rfl

/- It does not matter what is done about a failure. -/
theorem isWork_settled
    {ε' : Type}
    {action : Build ε α}
    (h : IsWork action) :
    IsWork (settled action : Build ε' (Except ε α)) := by
  intro w
  rw [after_settled]
  exact h w

theorem isWork_traced (t : Traced ε α) :
    IsWork (traced t) := by
  intro w
  unfold after traced
  cases t.outcome with
  | ok a => exact .refl w.layer w.sheet
  | error e => exact .refl w.layer w.sheet

/- A rejected assignment leaves the layer as it is. -/
theorem isWork_assign
    (name : String)
    (value : Value) :
    IsWork (assign name value) := by
  intro w
  unfold after assign EStateM.adaptExcept set
  cases hSet : w.layer.set name value with
  | ok next => exact .set w.sheet hSet
  | error e => exact .refl w.layer w.sheet

theorem isWork_refine
    (args : List Value)
    {body : Build ε α}
    (hBody : IsWork body) :
    IsWork (refine args body) := by
  intro w
  have hInside := hBody (childBench args w)
  unfold after at hInside ⊢
  unfold refine
  unfold childBench at hInside
  dsimp only at hInside ⊢
  cases hOutcome : body _ with
  | ok a v =>
      rw [hOutcome] at hInside
      exact .refine args hInside
  | error e v =>
      rw [hOutcome] at hInside
      exact .giveUp args hInside

theorem isWork_cascade
    (args : List Value)
    {body : Build ε α}
    (hBody : IsWork body) :
    IsWork (cascade args body) := by
  intro w
  have hInside :=
    hBody (withActive (Expression.condition? args) w)
  unfold after at hInside ⊢
  unfold cascade
  unfold withActive at hInside
  dsimp only at hInside ⊢
  cases hOutcome : body _ with
  | ok a v =>
      rw [hOutcome] at hInside
      exact .cascade args hInside
  | error e v =>
      rw [hOutcome] at hInside
      exact .cascade args hInside

/- All that bodies do is work. -/
theorem closed_isWork :
    Closed fun _ _ action => IsWork action where
  pure _ := fun w => .refl w.layer w.sheet
  throw _ := fun w => .refl w.layer w.sheet
  bind := isWork_bind
  settled := isWork_settled
  reads _ h := fun w => h w.layer w.sheet w
  traced := isWork_traced
  emit _ := fun w => .refl w.layer w.sheet
  assign := isWork_assign
  rename name := fun w => .rename w.layer w.sheet name
  suppress := fun w => .suppress w.layer w.sheet
  filter args := fun w => .filter w.layer w.sheet args
  uncascaded args := fun w => .uncascaded w.layer w.sheet args
  refine := isWork_refine
  cascade := isWork_cascade

end Build

------------------------------------------------------------
-- Reachable stylesheets
------------------------------------------------------------

/-
  A stylesheet that operations lead to from the empty one. A
  layer whose body is given up is dropped; what the body has
  added stays.
-/
inductive Stylesheet.Reachable : Stylesheet → Prop
  | empty : Reachable .empty
  | setProperty
    {sheet : Stylesheet}
    (h : Reachable sheet)
    (name : String)
    (value : Value) :
      Reachable (sheet.setProperty name value)
  | declareSource
    {sheet : Stylesheet}
    (h : Reachable sheet)
    (name : String)
    (options : List (String × Value)) :
      Reachable (sheet.declareSource name options)
  | register
    {sheet : Stylesheet}
    (h : Reachable sheet)
    (name : String)
    (recipe : Recipe) :
      Reachable (sheet.register name recipe)
  | layer
    {sheet reached : Stylesheet}
    {id : String}
    {options : List (String × Value)}
    {layer : Layer}
    (h : Reachable sheet)
    (hBody :
      Layer.Works (Layer.create id options sheet.sources) sheet
        layer reached) :
      Reachable (reached.insertAt sheet.layers.length layer)
  | giveUp
    {sheet reached : Stylesheet}
    {id : String}
    {options : List (String × Value)}
    {layer : Layer}
    (h : Reachable sheet)
    (hBody :
      Layer.Works (Layer.create id options sheet.sources) sheet
        layer reached) :
      Reachable reached

------------------------------------------------------------
-- Reachable layers
------------------------------------------------------------

/-
  A layer that is at work while a stylesheet is being built:
  just created or derived, in the middle of a body, or after
  any operation of it.
-/
inductive Layer.AtWork : Layer → Stylesheet → Prop
  | create
    {sheet : Stylesheet}
    (h : sheet.Reachable)
    (id : String)
    (options : List (String × Value)) :
      AtWork (create id options sheet.sources) sheet
  | refine
    {layer : Layer}
    {sheet : Stylesheet}
    (h : AtWork layer sheet)
    (args : List Value) :
      AtWork (layer.refine args sheet.sources).child sheet
  | cascade
    {layer : Layer}
    {sheet : Stylesheet}
    (h : AtWork layer sheet)
    (args : List Value) :
      AtWork
        { layer with active := Expression.condition? args }
        sheet
  | works
    {layer last : Layer}
    {sheet reached : Stylesheet}
    (h : AtWork layer sheet)
    (hWorks : Works layer sheet last reached) :
      AtWork last reached

/- A layer that is at work, or that has been added by then. -/
def Layer.Reachable (layer : Layer) : Prop :=
  ∃ other sheet,
    AtWork other sheet ∧
      (layer = other ∨ layer ∈ sheet.layers)

/- The layers of reachable stylesheets are reachable. -/
theorem Layer.reachable_of_mem
    {layer : Layer}
    {sheet : Stylesheet}
    (h : sheet.Reachable)
    (hLayer : layer ∈ sheet.layers) :
    layer.Reachable :=
  ⟨create "" [] sheet.sources, sheet, .create h "" [],
    Or.inr hLayer⟩

/-
  A property of layers that every operation preserves. It is
  about the properties, the settled type and the cascades of a
  layer, and nothing else of it.
-/
structure Layer.Preserved (P : Layer → Prop) : Prop where
  create :
    ∀ id options sources, P (Layer.create id options sources)
  congr :
    ∀ {layer other : Layer},
      P layer →
        other.properties = layer.properties →
          other.settled = layer.settled →
            other.cascades = layer.cascades → P other
  set :
    ∀ {layer next : Layer} {name : String} {value : Value},
      P layer → layer.set name value = .ok next → P next
  rename :
    ∀ {layer : Layer} (name : String),
      P layer → P (layer.put "id" (.text name))
  child :
    ∀ {layer : Layer} (args : List Value) (sources : Sources),
      P layer → P (layer.refine args sources).child
  sibling :
    ∀ {r : Refinement} {child : Layer} {cascade : Cascade}
      (sources : Sources) (index : Nat),
      P r.parent →
        P child →
          cascade ∈ r.parent.cascades →
            P (r.sibling child sources index cascade)

namespace Layer.Preserved

variable {P : Layer → Prop}
variable {layer last : Layer}
variable {sheet reached : Stylesheet}

theorem siblings
    (hP : Preserved P)
    {r : Refinement}
    {child : Layer}
    (sources : Sources)
    (hParent : P r.parent)
    (hChild : P child) :
    ∀ sibling ∈ r.siblings child sources, P sibling := by
  intro sibling hSibling
  unfold Refinement.siblings at hSibling
  rcases List.mem_mapIdx.mp hSibling with ⟨index, hIndex, rfl⟩
  exact
    hP.sibling sources index hParent hChild
      (List.getElem_mem hIndex)

theorem append
    (hSheet : ∀ l ∈ sheet.layers, P l)
    {layers : List Layer}
    (hLayers : ∀ l ∈ layers, P l) :
    ∀ l ∈ (sheet.append layers).layers, P l := by
  intro l hMem
  rcases List.mem_append.mp hMem with hOld | hNew
  · exact hSheet l hOld
  · exact hLayers l hNew

theorem insertAt
    (hSheet : ∀ l ∈ sheet.layers, P l)
    (place : Nat)
    (hLayer : P layer) :
    ∀ l ∈ (sheet.insertAt place layer).layers, P l := by
  intro l hMem
  rcases List.mem_append.mp hMem with hBefore | hBehind
  · exact hSheet l (List.mem_of_mem_take hBefore)
  · rcases List.mem_cons.mp hBehind with rfl | hAfter
    · exact hLayer
    · exact hSheet l (List.mem_of_mem_drop hAfter)

/- Work preserves it of the layer and of all others. -/
theorem works
    (hP : Preserved P)
    (h : Works layer sheet last reached)
    (hLayer : P layer)
    (hSheet : ∀ l ∈ sheet.layers, P l) :
    P last ∧ ∀ l ∈ reached.layers, P l := by
  induction h with
  | refl => exact ⟨hLayer, hSheet⟩
  | trans _ _ ihFirst ihSecond =>
      rcases ihFirst hLayer hSheet with ⟨hMiddle, hBetween⟩
      exact ihSecond hMiddle hBetween
  | set _ hSet => exact ⟨hP.set hLayer hSet, hSheet⟩
  | rename _ _ name => exact ⟨hP.rename name hLayer, hSheet⟩
  | suppress => exact ⟨hP.congr hLayer rfl rfl rfl, hSheet⟩
  | filter => exact ⟨hP.congr hLayer rfl rfl rfl, hSheet⟩
  | uncascaded => exact ⟨hP.congr hLayer rfl rfl rfl, hSheet⟩
  | @refine layer child sheet reached args _ ih =>
      have hParent :
          P (layer.refine args sheet.sources).parent :=
        hP.congr hLayer rfl rfl rfl
      rcases ih (hP.child args _ hLayer) hSheet with
        ⟨hChild, hReached⟩
      refine ⟨hParent, append hReached ?_⟩
      exact
        List.forall_mem_cons.mpr
          ⟨hChild, hP.siblings _ hParent hChild⟩
  | giveUp args _ ih =>
      exact
        ⟨hP.congr hLayer rfl rfl rfl,
          (ih (hP.child args _ hLayer) hSheet).2⟩
  | cascade args _ ih =>
      rcases ih (hP.congr hLayer rfl rfl rfl) hSheet with
        ⟨hLast, hReached⟩
      exact ⟨hP.congr hLast rfl rfl rfl, hReached⟩

/- All layers of reachable stylesheets have it. -/
theorem of_mem
    (hP : Preserved P)
    (h : sheet.Reachable) :
    ∀ l ∈ sheet.layers, P l := by
  induction h with
  | empty =>
      intro l hMem
      cases hMem
  | setProperty _ _ _ ih => exact ih
  | declareSource _ _ _ ih => exact ih
  | register _ _ _ ih => exact ih
  | layer _ hBody ih =>
      rcases hP.works hBody (hP.create _ _ _) ih with
        ⟨hLast, hReached⟩
      exact insertAt hReached _ hLast
  | giveUp _ hBody ih =>
      exact (hP.works hBody (hP.create _ _ _) ih).2

theorem atWork
    (hP : Preserved P)
    (h : AtWork layer sheet) :
    P layer ∧ ∀ l ∈ sheet.layers, P l := by
  induction h with
  | create hSheet id options =>
      exact ⟨hP.create _ _ _, hP.of_mem hSheet⟩
  | refine _ args ih =>
      exact ⟨hP.child args _ ih.1, ih.2⟩
  | cascade _ _ ih =>
      exact ⟨hP.congr ih.1 rfl rfl rfl, ih.2⟩
  | works _ hWorks ih => exact hP.works hWorks ih.1 ih.2

/- All reachable layers have it. -/
theorem reachable
    (hP : Preserved P)
    (h : layer.Reachable) : P layer := by
  rcases h with ⟨other, sheet, hWork, rfl | hMem⟩
  · exact (hP.atWork hWork).1
  · exact (hP.atWork hWork).2 layer hMem

end Layer.Preserved

------------------------------------------------------------
-- Loaded texts
------------------------------------------------------------

namespace Sheet

variable {ε α β : Type}

/- What an action leaves, if it fails as well. -/
def after
    (action : Sheet ε α)
    (s : Session) : Session :=
  match action s with
  | .ok _ t => t
  | .error _ t => t

/- An action that leads on from reachable stylesheets. -/
def LeadsOn (action : Sheet ε α) : Prop :=
  ∀ s,
    s.sheet.Reachable → (after action s).sheet.Reachable

theorem leadsOn_bind
    {first : Sheet ε α}
    {next : α → Sheet ε β}
    (hFirst : LeadsOn first)
    (hNext : ∀ a, LeadsOn (next a)) :
    LeadsOn (first >>= next) := by
  intro s hSheet
  have hReached := hFirst s hSheet
  unfold after at hReached ⊢
  simp only [bind, EStateM.bind]
  cases hOutcome : first s with
  | ok a t =>
      rw [hOutcome] at hReached
      exact hNext a t hReached
  | error e t =>
      rw [hOutcome] at hReached
      exact hReached

theorem leadsOn_traced (t : Traced ε α) :
    LeadsOn (traced t) := by
  intro s hSheet
  unfold after traced
  cases t.outcome with
  | ok a => exact hSheet
  | error e => exact hSheet

/- A layer is defined by whatever work its body is. -/
theorem leadsOn_layer
    (id : String)
    (options : List (String × Value))
    {body : Build ε α}
    (hBody : Build.IsWork body) :
    LeadsOn (layer id options body) := by
  intro s hSheet
  have hInside := hBody (layerBench id options s)
  unfold Build.after at hInside
  unfold after layer
  unfold layerBench at hInside
  dsimp only at hInside ⊢
  cases hOutcome : body _ with
  | ok a w =>
      rw [hOutcome] at hInside
      exact hSheet.layer hInside
  | error e w =>
      rw [hOutcome] at hInside
      exact hSheet.giveUp hInside

/- Whatever a program does leads on. -/
theorem closed_leadsOn :
    Closed (fun _ action => LeadsOn action)
      fun _ _ action => Build.IsWork action where
  bodies := Build.closed_isWork
  pure _ := fun _ h => h
  throw _ := fun _ h => h
  bind := leadsOn_bind
  reads _ h := fun s hSheet => h s.sheet s hSheet
  traced := leadsOn_traced
  declareSource name options :=
    fun _ hSheet => hSheet.declareSource name options
  setProperty name value :=
    fun _ hSheet => hSheet.setProperty name value
  layer id options := leadsOn_layer id options

/- Loading a text leads on, if it fails as well. -/
theorem leadsOn_load
    (texts : Texts)
    (source : String) :
    LeadsOn (load texts source) :=
  closed_leadsOn.load texts source

/- A text that is loaded leaves a reachable stylesheet. -/
theorem reachable_of_load
    {texts : Texts}
    {source : String}
    {s t : Session}
    (hReach : s.sheet.Reachable)
    (hLoad : load texts source s = .ok () t) :
    t.sheet.Reachable := by
  have hAfter := leadsOn_load texts source s hReach
  unfold after at hAfter
  rw [hLoad] at hAfter
  exact hAfter

end Sheet

end MapStyle
