import MapStyle.Document
import MapStyle.Proofs.Deeds
import MapStyle.Proofs.LayerOrder

/-
  What the definition of a layer leaves behind if its body
  fails. The layer itself is dropped, and so is the child of
  every refinement whose body fails; the refinements whose
  bodies succeed in this run leave their children and
  siblings, at every depth, and nothing else stays.

  Main statements:
    * `Sheet.sheet_of_layer_error`
    * `Sheet.layer_eq_error`
-/

namespace MapStyle

------------------------------------------------------------
-- Failed layers
------------------------------------------------------------

namespace Sheet

variable {ε α : Type}
variable {id : String}
variable {options : List (String × Value)}
variable {body : Build ε α}
variable {s t : Session}
variable {e : ε}

/- A failed layer leaves the stylesheet of its body. -/
theorem sheet_of_layer_error
    (h : layer id options body s = .error e t) :
    t.sheet =
      (Build.after body (layerBench id options s)).sheet := by
  unfold layer at h
  unfold Build.after layerBench
  dsimp only at h ⊢
  cases hBody : body _ with
  | ok a w =>
      rw [hBody] at h
      cases h
  | error found w =>
      rw [hBody] at h
      cases h
      rfl

/-
  What stays after a failed layer. The run of its body has
  deeds, and whatever its deeds are, the stylesheet is the one
  before with the children and siblings of the refinements
  that the run has finished, in order, at the end. So the list
  of layers is the one before exactly if the run has finished
  none.
-/
theorem layer_eq_error
    (hBody : Build.Built body)
    (h : layer id options body s = .error e t) :
    (∃ done,
      Build.Does body (layerBench id options s) done) ∧
      ∀ done,
        Build.Does body (layerBench id options s) done →
          t.sheet =
              s.sheet.append
                (Refinement.addedByAll s.sheet.sources
                  done.finished) ∧
            (t.sheet.layers = s.sheet.layers ↔
              done.finished = []) := by
  refine ⟨hBody.exists_does _, ?_⟩
  intro done hDone
  have hSheet :
      t.sheet =
        s.sheet.append
          (Refinement.addedByAll s.sheet.sources
            done.finished) :=
    (sheet_of_layer_error h).trans hDone.sheet
  refine ⟨hSheet, ?_⟩
  have hLayers :
      t.sheet.layers =
        s.sheet.layers ++
          Refinement.addedByAll s.sheet.sources
            done.finished := by
    rw [hSheet]
    rfl
  rw [hLayers, List.append_right_eq_self]
  exact Refinement.addedByAll_eq_nil_iff

/- The stylesheet that a failed layer leaves. -/
def leftBy? (body : Build Failure Unit) : Option Stylesheet :=
  match layer "a" [] body Document.fresh with
  | .ok _ _ => none
  | .error _ t => some t.sheet

theorem leftBy?_eq_some
    {body : Build Failure Unit}
    {sheet : Stylesheet} :
    leftBy? body = some sheet ↔
      ∃ e t,
        layer "a" [] body Document.fresh = .error e t ∧
          t.sheet = sheet := by
  unfold leftBy?
  cases layer "a" [] body Document.fresh with
  | ok _ t => simp
  | error e t =>
      constructor
      · intro h
        exact ⟨e, t, rfl, Option.some.inj h⟩
      · rintro ⟨_, _, hSame, hSheet⟩
        cases hSame
        exact congrArg some hSheet

/-
  Two blocks that are finished, and a third one that fails in
  a cascade, with another block finished inside of it.
-/
def interrupted : String :=
  "on \x7b on \x7d
  on \x7b cascade k \x7b
    on
    id 5
  \x7d \x7d"

theorem layer_eq_error_interrupted :
    ∃ e t done,
      layer "a" []
          (Build.runText Recipe.runner interrupted)
          Document.fresh =
        .error e t ∧
        Build.Does (Build.runText Recipe.runner interrupted)
          (layerBench "a" [] Document.fresh) done ∧
        t.sheet.layers =
          Refinement.addedByAll .empty done.finished ∧
        t.sheet.layers.map Layer.id =
          ["a__1__1", "a__1", "a__2__1"] ∧
        done.finished ≠ [] := by
  have hNames :
      (leftBy? (Build.runText Recipe.runner interrupted)).map
          (fun sheet => sheet.layers.map Layer.id) =
        some ["a__1__1", "a__1", "a__2__1"] := by
    decide +kernel
  rcases Option.map_eq_some_iff.mp hNames with
    ⟨sheet, hLeft, hIds⟩
  rcases leftBy?_eq_some.mp hLeft with ⟨e, t, hError, rfl⟩
  have hBuilt :
      Build.Built
        (Build.runText Recipe.runner interrupted) :=
    Build.closed_built.runText
      (Build.closed_built.runnerWithin _) interrupted
  rcases layer_eq_error hBuilt hError with
    ⟨⟨done, hDone⟩, hEach⟩
  rcases hEach done hDone with ⟨hSheet, hIff⟩
  refine ⟨e, t, done, hError, hDone, ?_, hIds, ?_⟩
  · rw [hSheet]
    rfl
  · intro hNil
    rw [hIff.mpr hNil] at hIds
    cases hIds

/- The text of the document of a stylesheet, if it has one. -/
def documentText? (sheet : Stylesheet) : Option String :=
  (sheet.compile ⟨false⟩).outcome.toOption.map Json.compact

/- A layer that fails after a block has been finished. -/
def failing : String :=
  "on \x7b line_width 2 \x7d
  line_width 1
  fill_color 3"

/-
  The layer fails in its own last statement; the block stays,
  and is written into the next document.
-/
theorem failedLayer_leaves_block :
    ∃ e t,
      layer "a" [] (Build.runText Recipe.runner failing)
          Document.fresh =
        .error e t ∧
        t.sheet.layers ≠ Document.fresh.sheet.layers ∧
        t.sheet.layers.map Layer.id = ["a__1"] ∧
        documentText? t.sheet =
          some
            "\x7b\"sources\":\x7b\x7d,\"layers\":[\x7b\"paint\":\x7b\"line-width\":2\x7d,\"id\":\"a__1\",\"type\":\"line\"\x7d]\x7d" := by
  have hCheck :
      (leftBy? (Build.runText Recipe.runner failing)).map
          (fun sheet =>
            (sheet.layers.map Layer.id, documentText? sheet)) =
        some
          (["a__1"],
            some
              "\x7b\"sources\":\x7b\x7d,\"layers\":[\x7b\"paint\":\x7b\"line-width\":2\x7d,\"id\":\"a__1\",\"type\":\"line\"\x7d]\x7d") := by
    decide +kernel
  rcases Option.map_eq_some_iff.mp hCheck with
    ⟨sheet, hLeft, hSheet⟩
  rcases leftBy?_eq_some.mp hLeft with ⟨e, t, hError, rfl⟩
  rcases Prod.mk.inj hSheet with ⟨hIds, hText⟩
  refine ⟨e, t, hError, ?_, hIds, hText⟩
  intro hNone
  rw [hNone] at hIds
  cases hIds

end Sheet

end MapStyle
