import MapStyle.Document.Layer
import MapStyle.Document.Reference
import MapStyle.Evaluation.Program
import MapStyle.Path

/-
  This file defines the documents of stylesheets.

  Key definitions include:
    * `CompileOptions`
    * `Stylesheet.writeLayers`
    * `Stylesheet.compile`
    * `Document.ofText`
    * `Document.ofFile`
-/

namespace MapStyle

/- Whether layers refer to earlier ones that they agree with. -/
structure CompileOptions where
  references : Bool

namespace Stylesheet

/- The written sources; the mark of the default is left out. -/
def writeSources (sources : Sources) : List (String × Json) :=
  sources.entries.map fun s =>
    let options := s.2.entries.filter fun o => o.1 ≠ "default"
    (s.1, .object (Value.lowerEntries options))

/-
  The written layers in order. Suppressed layers and those
  without effect are left out.
-/
def writeLayers :
    List Layer → Traced CompileError (List (Bag Json))
  | [] => pure []
  | layer :: rest =>
      if layer.written then do
        match ← Traced.ofExcept layer.write? with
        | some written => do
            let more ← writeLayers rest
            pure (written :: more)
        | none => do
            Traced.emit (.dropped layer.id)
            writeLayers rest
      else do
        Traced.emit (.suppressed layer.id)
        writeLayers rest

/- The document of a stylesheet. -/
def compile
    (sheet : Stylesheet)
    (options : CompileOptions) : Traced CompileError Json := do
  let written ← writeLayers sheet.layers
  let layers ←
    if options.references then
      Reference.collapse written
    else
      pure written
  Traced.emit (.compiled layers.length sheet.sources.size)
  let members :=
    (Bag.ofList (Value.lowerEntries sheet.properties.entries))
      |>.insert "sources" (.object (writeSources sheet.sources))
      |>.insert "layers" (.array (layers.map Json.ofBag))
  pure (Json.ofBag members)

end Stylesheet

namespace Document

/- The session at its beginning. -/
def fresh : Session :=
  ⟨.empty, #[]⟩

/- The document of a session, with all that was logged. -/
def ofSession
    (session : Session)
    (options : CompileOptions) : Traced Failure Json :=
  let document :=
    (session.sheet.compile options).mapError Failure.compile
  ⟨document.outcome, session.log.toList ++ document.events⟩

/- The document of a text, begun in a session. -/
def ofTextFrom
    (session : Session)
    (texts : Texts)
    (options : CompileOptions)
    (source : String) : Traced Failure Json :=
  match Sheet.load texts source session with
  | .ok _ loaded => ofSession loaded options
  | .error e failed => ⟨.error e, failed.log.toList⟩

/- The document of a text. -/
def ofText
    (texts : Texts)
    (options : CompileOptions)
    (source : String) : Traced Failure Json :=
  ofTextFrom fresh texts options source

/-
  The document of a file. The files that it includes, directly
  or not, are meant in its own directory.
-/
def ofFile
    (texts : Texts)
    (options : CompileOptions)
    (path : String) : Traced Failure Json :=
  match texts path with
  | .error cause => .fail (.compile (.unreadable path cause))
  | .ok source =>
      ofText (fun name => texts (Path.beside path name)) options
        source

end Document

end MapStyle
