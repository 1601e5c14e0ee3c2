import MapStyle.Document
import MapStyle.Proofs.Action

/-
  When a stylesheet compiles without references, and to what:
  every layer contributes its own entry, or none, and the
  entries follow the order of the layers.

  Key definitions include:
    * `Layer.entry?`
    * `Layer.Emits`
    * `Stylesheet.document`

  Main statements:
    * `Layer.emits_append_iff`
    * `Stylesheet.compile_eq_ok`
    * `Document.ofTextFrom_eq_ok`
-/

namespace MapStyle

namespace Layer

------------------------------------------------------------
-- Entries
------------------------------------------------------------

/- What a layer contributes to the layers of a document. -/
def entry?
    (layer : Layer) :
    Except CompileError (Option (Bag Json)) :=
  if layer.written then layer.write? else .ok none

/- The entries of several layers, one after another. -/
inductive Emits : List Layer → List (Bag Json) → Prop
  | nil : Emits [] []
  | cons
    {layer : Layer}
    {entry : Option (Bag Json)}
    {rest : List Layer}
    {entries : List (Bag Json)}
    (hEntry : layer.entry? = .ok entry)
    (hRest : Emits rest entries) :
      Emits (layer :: rest) (entry.toList ++ entries)

/-
  Layers are written one after another, so a list may be cut
  anywhere.
-/
theorem emits_append_iff
    {first second : List Layer}
    {entries : List (Bag Json)} :
    Emits (first ++ second) entries ↔
      ∃ front back,
        Emits first front ∧
          Emits second back ∧ entries = front ++ back := by
  constructor
  · induction first generalizing entries with
    | nil =>
        intro h
        exact ⟨[], entries, .nil, h, rfl⟩
    | cons layer rest ih =>
        intro h
        cases h with
        | @cons _ entry _ more hEntry hRest =>
            rcases ih hRest with ⟨front, back, hFront, hBack, rfl⟩
            exact
              ⟨entry.toList ++ front, back, .cons hEntry hFront,
                hBack, (List.append_assoc _ _ _).symm⟩
  · rintro ⟨front, back, hFront, hBack, rfl⟩
    induction hFront with
    | nil => exact hBack
    | cons hEntry _ ih =>
        rw [List.append_assoc]
        exact .cons hEntry ih

theorem emits_cons_iff
    {layer : Layer}
    {rest : List Layer}
    {entries : List (Bag Json)} :
    Emits (layer :: rest) entries ↔
      ∃ entry more,
        layer.entry? = .ok entry ∧
          Emits rest more ∧ entries = entry.toList ++ more := by
  constructor
  · intro h
    cases h with
    | cons hEntry hRest => exact ⟨_, _, hEntry, hRest, rfl⟩
  · rintro ⟨entry, more, hEntry, hRest, rfl⟩
    exact .cons hEntry hRest

end Layer

------------------------------------------------------------
-- Documents of stylesheets
------------------------------------------------------------

namespace Stylesheet

theorem writeLayers_eq_ok
    {layers : List Layer}
    {entries : List (Bag Json)} :
    (writeLayers layers).outcome = .ok entries ↔
      Layer.Emits layers entries := by
  induction layers generalizing entries with
  | nil =>
      constructor
      · intro h
        cases h
        exact .nil
      · intro h
        cases h
        rfl
  | cons layer rest ih =>
      rw [Layer.emits_cons_iff, writeLayers, Layer.entry?]
      cases layer.written with
      | false =>
          rw [if_neg Bool.false_ne_true,
            if_neg Bool.false_ne_true,
            Traced.outcome_bind (a := ()) rfl, ih]
          constructor
          · intro h
            exact ⟨none, entries, rfl, h, rfl⟩
          · rintro ⟨_, _, hNone, hRest, rfl⟩
            cases hNone
            exact hRest
      | true =>
          rw [if_pos rfl, if_pos rfl, Traced.bind_eq_ok]
          apply exists_congr
          intro entry
          constructor
          · rintro ⟨hEntry, hMore⟩
            cases entry with
            | none =>
                rw [Traced.outcome_bind (a := ()) rfl, ih]
                  at hMore
                exact ⟨entries, hEntry, hMore, rfl⟩
            | some written =>
                rcases Traced.bind_eq_ok.mp hMore with
                  ⟨more, hRest, hPure⟩
                cases hPure
                exact ⟨more, hEntry, ih.mp hRest, rfl⟩
          · rintro ⟨more, hEntry, hRest, rfl⟩
            refine ⟨hEntry, ?_⟩
            cases entry with
            | none =>
                rw [Traced.outcome_bind (a := ()) rfl, ih]
                exact hRest
            | some written =>
                rw [Traced.outcome_bind (ih.mpr hRest)]
                rfl

/-
  A document: the written properties, under which the sources
  and the layers take the place of members of the same name.
-/
def document
    (properties : Bag Value)
    (sources : Sources)
    (entries : List (Bag Json)) : Json :=
  let members :=
    (Bag.ofList (Value.lowerEntries properties.entries))
      |>.insert "sources" (.object (writeSources sources))
      |>.insert "layers" (.array (entries.map Json.ofBag))
  Json.ofBag members

/- Without references, compiling fails only in a layer. -/
theorem compile_eq_ok
    {sheet : Stylesheet}
    {result : Json} :
    (sheet.compile ⟨false⟩).outcome = .ok result ↔
      ∃ entries,
        Layer.Emits sheet.layers entries ∧
          result =
            document sheet.properties sheet.sources entries := by
  unfold compile
  rw [Traced.bind_eq_ok]
  apply exists_congr
  intro entries
  rw [writeLayers_eq_ok]
  apply and_congr_right
  intro _
  rw [if_neg Bool.false_ne_true,
    Traced.outcome_bind (a := entries) rfl,
    Traced.outcome_bind (a := ()) rfl]
  constructor
  · intro h
    cases h
    rfl
  · rintro rfl
    rfl

end Stylesheet

------------------------------------------------------------
-- Documents of texts
------------------------------------------------------------

namespace Document

/-
  The document of a text is that of the stylesheet to which it
  is loaded.
-/
theorem ofTextFrom_eq_ok
    {session : Session}
    {texts : Texts}
    {source : String}
    {result : Json} :
    (ofTextFrom session texts ⟨false⟩ source).outcome =
        .ok result ↔
      ∃ loaded entries,
        Sheet.load texts source session = .ok () loaded ∧
          Layer.Emits loaded.sheet.layers entries ∧
            result =
              Stylesheet.document loaded.sheet.properties
                loaded.sheet.sources entries := by
  unfold ofTextFrom
  cases Sheet.load texts source session with
  | error e failed =>
      constructor
      · intro h
        cases h
      · rintro ⟨_, _, hLoad, _⟩
        cases hLoad
  | ok _ loaded =>
      have hCompile :
          (ofSession loaded ⟨false⟩).outcome = .ok result ↔
            (loaded.sheet.compile ⟨false⟩).outcome =
              .ok result :=
        Traced.mapError_eq_ok
      rw [hCompile, Stylesheet.compile_eq_ok]
      constructor
      · rintro ⟨entries, hEmits, hResult⟩
        exact ⟨loaded, entries, rfl, hEmits, hResult⟩
      · rintro ⟨_, entries, hLoad, hEmits, hResult⟩
        cases hLoad
        exact ⟨entries, hEmits, hResult⟩

end Document

end MapStyle
