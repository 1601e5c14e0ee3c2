import MapStyle.Proofs.Sweep

/-
  What is logged has no influence: from stylesheets and layers
  that are the same, every body and every program leads to the
  same outcome and to the same stylesheet, whatever has been
  logged before.

  Key definitions include:
    * `Action.Alike`
    * `Action.Respects`
    * `Workbench.Same`
    * `Session.Same`

  Main statements:
    * `Build.closed_respects`
    * `Sheet.closed_respects`
-/

namespace MapStyle

------------------------------------------------------------
-- Results that are alike
------------------------------------------------------------

namespace Action

variable {ε σ α β : Type}

/- Results with the same outcome, and related states. -/
inductive Alike
    (R : σ → σ → Prop) :
    EStateM.Result ε σ α → EStateM.Result ε σ α → Prop
  | ok
    (a : α)
    {s t : σ}
    (h : R s t) :
      Alike R (.ok a s) (.ok a t)
  | error
    (e : ε)
    {s t : σ}
    (h : R s t) :
      Alike R (.error e s) (.error e t)

/- An action with results that are alike in related states. -/
def Respects
    (R : σ → σ → Prop)
    (action : EStateM ε σ α) : Prop :=
  ∀ s t, R s t → Alike R (action s) (action t)

variable {R : σ → σ → Prop}

/-
  Chains are alike if their parts are, from states that the
  first parts lead to.
-/
theorem Alike.bind
    {first second : EStateM ε σ α}
    {next other : α → EStateM ε σ β}
    {s t : σ}
    (hFirst : Alike R (first s) (second t))
    (hNext :
      ∀ a u v,
        first s = .ok a u →
          R u v → Alike R (next a u) (other a v)) :
    Alike R ((first >>= next) s) ((second >>= other) t) := by
  simp only [Bind.bind, EStateM.bind]
  cases hOutcome : first s with
  | ok a u =>
      rw [hOutcome] at hFirst
      generalize second t = result at hFirst ⊢
      cases hFirst with
      | ok _ hSame => exact hNext a _ _ hOutcome hSame
  | error e u =>
      rw [hOutcome] at hFirst
      generalize second t = result at hFirst ⊢
      cases hFirst with
      | error _ hSame => exact .error e hSame

theorem Respects.bind
    {first : EStateM ε σ α}
    {next : α → EStateM ε σ β}
    (hFirst : Respects R first)
    (hNext : ∀ a, Respects R (next a)) :
    Respects R (first >>= next) :=
  fun s t hSame =>
    (hFirst s t hSame).bind fun a u v _ => hNext a u v

end Action

open MapStyle.Action

------------------------------------------------------------
-- Bodies
------------------------------------------------------------

/- Workbenches that differ in what has been logged at most. -/
structure Workbench.Same (w v : Workbench) : Prop where
  layer : w.layer = v.layer
  sheet : w.sheet = v.sheet

namespace Build

variable {ε ε' α β : Type}

/- Workbenches that are the same differ in the log. -/
theorem respects_of_log
    {action : Build ε α}
    (h :
      ∀ layer sheet log other,
        Alike Workbench.Same (action ⟨layer, sheet, log⟩)
          (action ⟨layer, sheet, other⟩)) :
    Respects Workbench.Same action := by
  rintro ⟨layer, sheet, log⟩ ⟨_, _, other⟩ ⟨rfl, rfl⟩
  exact h layer sheet log other

/- Failures that are caught are the same failures. -/
theorem respects_settled
    {action : Build ε α}
    (h : Respects Workbench.Same action) :
    Respects Workbench.Same
      (settled action : Build ε' (Except ε α)) := by
  intro w v hSame
  have hInside := h w v hSame
  unfold settled
  generalize action w = result at hInside ⊢
  generalize action v = other at hInside ⊢
  cases hInside with
  | ok a hReached => exact .ok _ hReached
  | error e hReached => exact .ok _ hReached

theorem respects_traced (t : Traced ε α) :
    Respects Workbench.Same (traced t) := by
  apply respects_of_log
  intro layer sheet log other
  unfold traced
  cases t.outcome with
  | ok a => exact .ok a ⟨rfl, rfl⟩
  | error e => exact .error e ⟨rfl, rfl⟩

/-
  An assignment logs what it does, and does not look at the
  log.
-/
theorem respects_assign
    (name : String)
    (value : Value) :
    Respects Workbench.Same (assign name value) := by
  apply respects_of_log
  intro layer sheet log other
  unfold assign EStateM.adaptExcept set
  dsimp only
  cases layer.set name value with
  | ok next => exact .ok _ ⟨rfl, rfl⟩
  | error e => exact .error _ ⟨rfl, rfl⟩

theorem respects_modifyLayer (change : Layer → Layer) :
    Respects Workbench.Same
      (modifyLayer change : Build ε Unit) := by
  apply respects_of_log
  intro layer sheet log other
  exact .ok () ⟨rfl, rfl⟩

/-
  Both children begin alike, and only logged events tell
  their ends apart.
-/
theorem respects_refine
    (args : List Value)
    {body : Build ε α}
    (h : Respects Workbench.Same body) :
    Respects Workbench.Same (refine args body) := by
  apply respects_of_log
  intro layer sheet log other
  unfold refine
  dsimp only
  have hInside :=
    h ⟨(layer.refine args sheet.sources).child, sheet,
        log ++
          (layer.refine args
            sheet.sources).child.creationEvents⟩
      ⟨(layer.refine args sheet.sources).child, sheet,
        other ++
          (layer.refine args
            sheet.sources).child.creationEvents⟩ ⟨rfl, rfl⟩
  generalize body _ = result at hInside ⊢
  generalize body _ = result at hInside ⊢
  cases hInside with
  | ok a hReached =>
      rcases hReached with ⟨hLayer, hSheet⟩
      refine .ok a ⟨rfl, ?_⟩
      dsimp only
      rw [hLayer, hSheet]
  | error e hReached => exact .error e ⟨rfl, hReached.sheet⟩

theorem respects_cascade
    (args : List Value)
    {body : Build ε α}
    (h : Respects Workbench.Same body) :
    Respects Workbench.Same (cascade args body) := by
  apply respects_of_log
  intro layer sheet log other
  unfold cascade
  dsimp only
  have hInside :=
    h ⟨{ layer with active := Expression.condition? args },
        sheet, log⟩
      ⟨{ layer with active := Expression.condition? args },
        sheet, other⟩ ⟨rfl, rfl⟩
  generalize body _ = result at hInside ⊢
  generalize body _ = result at hInside ⊢
  cases hInside with
  | ok a hReached =>
      refine .ok a ⟨?_, hReached.sheet⟩
      dsimp only
      rw [hReached.layer]
  | error e hReached =>
      refine .error e ⟨?_, hReached.sheet⟩
      dsimp only
      rw [hReached.layer]

/- No body looks at the log. -/
theorem closed_respects :
    Closed fun _ _ action => Respects Workbench.Same action where
  pure a := fun _ _ hSame => .ok a hSame
  throw e := fun _ _ hSame => .error e hSame
  bind := Respects.bind
  settled := respects_settled
  reads action h := by
    apply respects_of_log
    intro layer sheet log other
    exact h layer sheet _ _ ⟨rfl, rfl⟩
  traced := respects_traced
  emit event := fun _ _ hSame =>
    .ok () ⟨hSame.layer, hSame.sheet⟩
  assign := respects_assign
  rename name := respects_modifyLayer _
  suppress := respects_modifyLayer _
  filter args := respects_modifyLayer _
  uncascaded args := respects_modifyLayer _
  refine := respects_refine
  cascade := respects_cascade

end Build

------------------------------------------------------------
-- Programs
------------------------------------------------------------

/- Sessions that differ in what has been logged at most. -/
def Session.Same (s t : Session) : Prop :=
  s.sheet = t.sheet

namespace Sheet

variable {α : Type}

theorem respects_traced (t : Traced Failure α) :
    Respects Session.Same (traced t) := by
  intro s u hSame
  unfold traced
  cases t.outcome with
  | ok a => exact .ok a hSame
  | error e => exact .error e hSame

theorem respects_modifySheet
    (change : Stylesheet → Stylesheet) :
    Respects Session.Same
      (modifySheet change : Sheet Failure Unit) := by
  intro s t hSame
  exact .ok () (congrArg change hSame)

/- The layer is created from the sources alone. -/
theorem respects_layer
    (id : String)
    (options : List (String × Value))
    {body : Build Failure Unit}
    (h : Respects Workbench.Same body) :
    Respects Session.Same (layer id options body) := by
  rintro ⟨sheet, log⟩ ⟨_, other⟩ hSame
  cases hSame
  unfold layer
  dsimp only
  have hInside :=
    h ⟨Layer.create id options sheet.sources, sheet,
        log ++
          (Layer.create id options
            sheet.sources).creationEvents⟩
      ⟨Layer.create id options sheet.sources, sheet,
        other ++
          (Layer.create id options
            sheet.sources).creationEvents⟩ ⟨rfl, rfl⟩
  generalize body _ = result at hInside ⊢
  generalize body _ = result at hInside ⊢
  cases hInside with
  | ok a hReached =>
      rcases hReached with ⟨hLayer, hSheet⟩
      refine .ok a ?_
      unfold Session.Same
      dsimp only
      rw [hLayer, hSheet]
  | error e hReached => exact .error e hReached.sheet

/- No program looks at the log. -/
theorem closed_respects :
    Closed (fun _ action => Respects Session.Same action)
      fun _ _ action => Respects Workbench.Same action where
  bodies := Build.closed_respects
  pure a := fun _ _ hSame => .ok a hSame
  throw e := fun _ _ hSame => .error e hSame
  bind := Respects.bind
  reads action h := by
    rintro ⟨sheet, log⟩ ⟨_, other⟩ hSame
    cases hSame
    exact h sheet _ _ rfl
  traced := respects_traced
  declareSource name options := respects_modifySheet _
  setProperty name value := respects_modifySheet _
  layer := respects_layer

end Sheet

end MapStyle
