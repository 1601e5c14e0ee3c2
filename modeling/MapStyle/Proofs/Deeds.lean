import MapStyle.Proofs.Assignment
import MapStyle.Proofs.Reachable

/-
  What the run of a body does, on record: the properties that
  it assigns to its layer, and the refinements that it
  finishes, those inside of other blocks included. A run
  changes the stylesheet and the properties by its deeds and
  by nothing else, whether it succeeds or fails.

  Key definitions include:
    * `Build.Built`
    * `Build.Deeds`
    * `Build.Does`

  Main statements:
    * `Build.closed_built`
    * `Build.Built.exists_does`
    * `Build.Does.sheet`
    * `Build.Does.properties`
-/

namespace MapStyle

------------------------------------------------------------
-- Finished refinements
------------------------------------------------------------

/- What a finished refinement adds: the child and siblings. -/
def Refinement.added
    (sources : Sources)
    (finished : Refinement × Layer) : List Layer :=
  finished.2 :: finished.1.siblings finished.2 sources

/- What several finished refinements add, in order. -/
def Refinement.addedByAll
    (sources : Sources)
    (finished : List (Refinement × Layer)) : List Layer :=
  finished.flatMap (added sources)

theorem Refinement.addedByAll_append
    (sources : Sources)
    (first second : List (Refinement × Layer)) :
    addedByAll sources (first ++ second) =
      addedByAll sources first ++ addedByAll sources second :=
  List.flatMap_append

theorem Refinement.addedByAll_singleton
    (sources : Sources)
    (finished : Refinement × Layer) :
    addedByAll sources [finished] = added sources finished :=
  List.flatMap_singleton _ _

/- Every finished refinement adds a layer. -/
theorem Refinement.addedByAll_eq_nil_iff
    {sources : Sources}
    {finished : List (Refinement × Layer)} :
    addedByAll sources finished = [] ↔ finished = [] := by
  unfold addedByAll added
  rw [List.flatMap_eq_nil_iff]
  constructor
  · intro hNone
    apply List.eq_nil_iff_forall_not_mem.mpr
    intro pair hPair
    exact List.cons_ne_nil _ _ (hNone pair hPair)
  · rintro rfl pair hPair
    cases hPair

namespace Build

------------------------------------------------------------
-- Bodies of operations
------------------------------------------------------------

/-
  A single operation that adds no layer and assigns no
  property.
-/
inductive IsPlain : {ε α : Type} → Build ε α → Prop
  | pure {ε α : Type} (a : α) :
      IsPlain (Pure.pure a : Build ε α)
  | throw {ε α : Type} (e : ε) :
      IsPlain (MonadExcept.throw e : Build ε α)
  | traced {ε α : Type} (t : Traced ε α) :
      IsPlain (traced t)
  | emit {ε : Type} (event : Event) :
      IsPlain (emit event : Build ε Unit)
  | suppress {ε : Type} :
      IsPlain (suppress : Build ε Unit)
  | filter {ε : Type} (args : List Value) :
      IsPlain (filter args : Build ε Unit)
  | uncascaded {ε : Type} (args : List Value) :
      IsPlain (uncascaded args : Build ε Unit)

/-
  An action that is made of operations on the layer at work.
  What comes next may depend on every answer, on the layer and
  on the stylesheet, and a failure may be passed on or not.
-/
inductive Built : {ε α : Type} → Build ε α → Prop
  | plain
    {ε α : Type}
    {action : Build ε α}
    (hPlain : IsPlain action) :
      Built action
  | bind
    {ε α β : Type}
    {first : Build ε α}
    {next : α → Build ε β}
    (hFirst : Built first)
    (hNext : ∀ a, Built (next a)) :
      Built (first >>= next)
  | settled
    {ε ε' α : Type}
    {action : Build ε α}
    (h : Built action) :
      Built (settled action : Build ε' (Except ε α))
  | reads
    {ε α : Type}
    (action : Layer → Stylesheet → Build ε α)
    (h : ∀ layer sheet, Built (action layer sheet)) :
      Built fun w => action w.layer w.sheet w
  | assign (name : String) (value : Value) :
      Built (assign name value)
  | rename {ε : Type} (name : String) :
      Built (rename name : Build ε Unit)
  | refine
    {ε α : Type}
    {body : Build ε α}
    (args : List Value)
    (hBody : Built body) :
      Built (refine args body)
  | cascade
    {ε α : Type}
    {body : Build ε α}
    (args : List Value)
    (hBody : Built body) :
      Built (cascade args body)

/- All blocks, texts and recipes are made of operations. -/
theorem closed_built :
    Closed fun _ _ action => Built action where
  pure a := .plain (.pure a)
  throw e := .plain (.throw e)
  bind := .bind
  settled := .settled
  reads := .reads
  traced t := .plain (.traced t)
  emit event := .plain (.emit event)
  assign := .assign
  rename := .rename
  suppress := .plain .suppress
  filter args := .plain (.filter args)
  uncascaded args := .plain (.uncascaded args)
  refine args := .refine args
  cascade args := .cascade args

------------------------------------------------------------
-- Deeds
------------------------------------------------------------

/-
  What a run does to its layer and to the stylesheet: the
  properties that it assigns under their kept names, and the
  refinements that it finishes, each with its finished child,
  both in order.
-/
structure Deeds where
  assigned : List (String × Value)
  finished : List (Refinement × Layer)

namespace Deeds

/- Nothing is done. -/
def none : Deeds :=
  ⟨[], []⟩

/- One deed after another. -/
def append (first second : Deeds) : Deeds where
  assigned := first.assigned ++ second.assigned
  finished := first.finished ++ second.finished

/- The value that has been assigned last under a name. -/
def lastAssigned?
    (deeds : Deeds)
    (name : String) : Option Value :=
  Entries.find? name deeds.assigned.reverse

end Deeds

/-
  The deeds of the run of an action on a workbench. What a
  block does to the stylesheet counts, what it does to its own
  child does not. A refinement is finished if its body
  succeeds in this run; one whose body fails is given up, but
  what has been finished inside of it counts. Assignments
  count if they reach the properties of the layer.
-/
inductive Does :
    {ε α : Type} → Build ε α → Workbench → Deeds → Prop
  | plain
    {ε α : Type}
    {action : Build ε α}
    (hPlain : IsPlain action)
    (w : Workbench) :
      Does action w .none
  | bindOk
    {ε α β : Type}
    {first : Build ε α}
    {next : α → Build ε β}
    {w v : Workbench}
    {a : α}
    {done more : Deeds}
    (hDone : Does first w done)
    (hFirst : first w = .ok a v)
    (hMore : Does (next a) v more) :
      Does (first >>= next) w (done.append more)
  | bindError
    {ε α β : Type}
    {first : Build ε α}
    {w v : Workbench}
    {e : ε}
    {done : Deeds}
    (next : α → Build ε β)
    (hDone : Does first w done)
    (hFirst : first w = .error e v) :
      Does (first >>= next) w done
  | settled
    {ε ε' α : Type}
    {action : Build ε α}
    {w : Workbench}
    {done : Deeds}
    (hDone : Does action w done) :
      Does (settled action : Build ε' (Except ε α)) w done
  | reads
    {ε α : Type}
    {action : Layer → Stylesheet → Build ε α}
    {w : Workbench}
    {done : Deeds}
    (hDone : Does (action w.layer w.sheet) w done) :
      Does (fun w => action w.layer w.sheet w) w done
  | assign
    {w : Workbench}
    {next : Layer}
    {name : String}
    {value : Value}
    (hInactive : w.layer.active = none)
    (hSet : w.layer.set name value = .ok next) :
      Does (assign name value) w
        ⟨[(Spelling.underscored name, value)], []⟩
  -- Under an active condition it is recorded in a cascade.
  | divert
    {w : Workbench}
    {condition : Expression}
    (name : String)
    (value : Value)
    (hActive : w.layer.active = some condition) :
      Does (assign name value) w .none
  | reject
    {w : Workbench}
    {name : String}
    {value : Value}
    {e : CompileError}
    (hSet : w.layer.set name value = .error e) :
      Does (assign name value) w .none
  | rename {ε : Type} (name : String) (w : Workbench) :
      Does (rename name : Build ε Unit) w
        ⟨[("id", .text name)], []⟩
  -- The siblings are made of the child that the body leaves.
  | finish
    {ε α : Type}
    {args : List Value}
    {body : Build ε α}
    {w v : Workbench}
    {a : α}
    {inside : Deeds}
    (hInside : Does body (childBench args w) inside)
    (hBody : body (childBench args w) = .ok a v) :
      Does (refine args body) w
        ⟨[],
          inside.finished ++
            [(w.layer.refine args w.sheet.sources, v.layer)]⟩
  | giveUp
    {ε α : Type}
    {args : List Value}
    {body : Build ε α}
    {w v : Workbench}
    {e : ε}
    {inside : Deeds}
    (hInside : Does body (childBench args w) inside)
    (hBody : body (childBench args w) = .error e v) :
      Does (refine args body) w ⟨[], inside.finished⟩
  | cascade
    {ε α : Type}
    {args : List Value}
    {body : Build ε α}
    {w : Workbench}
    {inside : Deeds}
    (hInside :
      Does body (withActive (Expression.condition? args) w)
        inside) :
      Does (cascade args body) w inside

variable {ε α : Type}
variable {action body : Build ε α}
variable {args : List Value}
variable {w v : Workbench}
variable {done : Deeds}

/- Every run of operations has its deeds. -/
theorem Built.exists_does
    (h : Built action)
    (w : Workbench) :
    ∃ done, Does action w done := by
  induction h generalizing w with
  | plain hPlain => exact ⟨.none, .plain hPlain w⟩
  | @bind _ _ _ first next _ _ ihFirst ihNext =>
      rcases ihFirst w with ⟨done, hDone⟩
      -- The outcome of this run decides what comes next.
      cases hFirst : first w with
      | ok a v =>
          rcases ihNext a v with ⟨more, hMore⟩
          exact ⟨done.append more, .bindOk hDone hFirst hMore⟩
      | error e v => exact ⟨done, .bindError next hDone hFirst⟩
  | settled _ ih =>
      rcases ih w with ⟨done, hDone⟩
      exact ⟨done, .settled hDone⟩
  | reads action _ ih =>
      rcases ih w.layer w.sheet w with ⟨done, hDone⟩
      exact ⟨done, .reads hDone⟩
  | assign name value =>
      cases hActive : w.layer.active with
      | some condition =>
          exact ⟨.none, .divert name value hActive⟩
      | none =>
          cases hSet : w.layer.set name value with
          | ok next => exact ⟨_, .assign hActive hSet⟩
          | error e => exact ⟨.none, .reject hSet⟩
  | rename name => exact ⟨_, .rename name w⟩
  | @refine _ _ body args _ ih =>
      rcases ih (childBench args w) with ⟨inside, hInside⟩
      cases hBody : body (childBench args w) with
      | ok a v => exact ⟨_, .finish hInside hBody⟩
      | error e v => exact ⟨_, .giveUp hInside hBody⟩
  | cascade args _ ih =>
      rcases ih (withActive (Expression.condition? args) w) with
        ⟨inside, hInside⟩
      exact ⟨inside, .cascade hInside⟩

------------------------------------------------------------
-- What single operations leave
------------------------------------------------------------

/- The stylesheet and the properties stay as they are. -/
theorem IsPlain.kept
    (h : IsPlain action)
    (w : Workbench) :
    (after action w).sheet = w.sheet ∧
      (after action w).layer.properties =
        w.layer.properties := by
  cases h with
  | pure => exact ⟨rfl, rfl⟩
  | throw => exact ⟨rfl, rfl⟩
  | traced t =>
      unfold after Build.traced
      cases t.outcome with
      | ok a => exact ⟨rfl, rfl⟩
      | error e => exact ⟨rfl, rfl⟩
  | emit => exact ⟨rfl, rfl⟩
  | suppress => exact ⟨rfl, rfl⟩
  | filter => exact ⟨rfl, rfl⟩
  | uncascaded => exact ⟨rfl, rfl⟩

theorem sheet_after_assign
    (name : String)
    (value : Value)
    (w : Workbench) :
    (after (assign name value) w).sheet = w.sheet := by
  unfold after assign EStateM.adaptExcept set
  cases w.layer.set name value with
  | ok next => rfl
  | error e => rfl

theorem layer_after_assign
    {name : String}
    {value : Value}
    {next : Layer}
    (hSet : w.layer.set name value = .ok next) :
    (after (assign name value) w).layer = next := by
  unfold after assign EStateM.adaptExcept set
  rw [hSet]

/- A rejected assignment changes nothing. -/
theorem layer_after_rejected
    {name : String}
    {value : Value}
    {e : CompileError}
    (hSet : w.layer.set name value = .error e) :
    (after (assign name value) w).layer = w.layer := by
  unfold after assign EStateM.adaptExcept set
  rw [hSet]

theorem layer_after_refine
    (args : List Value)
    (body : Build ε α)
    (w : Workbench) :
    (after (refine args body) w).layer =
      (w.layer.refine args w.sheet.sources).parent := by
  unfold after refine
  dsimp only
  cases body _ with
  | ok a v => rfl
  | error e v => rfl

/- A finished refinement adds its child and the siblings. -/
theorem sheet_after_finished
    {a : α}
    (hBody : body (childBench args w) = .ok a v) :
    (after (refine args body) w).sheet =
      v.sheet.append
        (Refinement.added v.sheet.sources
          (w.layer.refine args w.sheet.sources, v.layer)) := by
  rw [after_of_ok (refine_eq_ok.mpr ⟨v, hBody, rfl⟩)]
  rfl

/- A refinement that is given up adds nothing of its own. -/
theorem sheet_after_givenUp
    {e : ε}
    (hBody : body (childBench args w) = .error e v) :
    (after (refine args body) w).sheet = v.sheet := by
  unfold childBench at hBody
  unfold after refine
  dsimp only at hBody ⊢
  rw [hBody]

theorem sheet_after_cascade
    (args : List Value)
    (body : Build ε α)
    (w : Workbench) :
    (after (cascade args body) w).sheet =
      (after body
        (withActive (Expression.condition? args) w)).sheet := by
  unfold after cascade withActive
  dsimp only
  cases body _ with
  | ok a v => rfl
  | error e v => rfl

/- A cascade keeps the properties that its body leaves. -/
theorem properties_after_cascade
    (args : List Value)
    (body : Build ε α)
    (w : Workbench) :
    (after (cascade args body) w).layer.properties =
      (after body
        (withActive (Expression.condition? args)
          w)).layer.properties := by
  unfold after cascade withActive
  dsimp only
  cases body _ with
  | ok a v => rfl
  | error e v => rfl

------------------------------------------------------------
-- What runs leave
------------------------------------------------------------

/-
  A run adds to the stylesheet the children and siblings of
  the refinements that it finishes, and changes nothing else
  of it.
-/
theorem Does.sheet (h : Does action w done) :
    (after action w).sheet =
      w.sheet.append
        (Refinement.addedByAll w.sheet.sources
          done.finished) := by
  have hNone :
      ∀ sheet : Stylesheet,
        sheet =
          sheet.append
            (Refinement.addedByAll sheet.sources []) :=
    fun sheet => sheet.append_nil.symm
  induction h with
  | plain hPlain w => exact (hPlain.kept w).1.trans (hNone _)
  | bindOk _ hFirst _ ihDone ihMore =>
      rw [after_of_ok hFirst] at ihDone
      -- The second part begins with the sources of the first.
      rw [after_bind_of_ok hFirst, ihMore, ihDone,
        Stylesheet.append_sources, Stylesheet.append_append,
        ← Refinement.addedByAll_append]
      rfl
  | bindError next _ hFirst ih =>
      rw [after_of_error hFirst] at ih
      rw [after_bind_of_error hFirst]
      exact ih
  | settled _ ih =>
      rw [after_settled]
      exact ih
  | reads _ ih => exact ih
  | assign _ _ =>
      exact (sheet_after_assign _ _ _).trans (hNone _)
  | divert name value _ =>
      exact (sheet_after_assign name value _).trans (hNone _)
  | reject _ =>
      exact (sheet_after_assign _ _ _).trans (hNone _)
  | rename name w => exact hNone w.sheet
  | finish _ hBody ih =>
      rw [after_of_ok hBody] at ih
      -- The child goes behind what is finished inside of it.
      rw [sheet_after_finished hBody, ih,
        Stylesheet.append_sources, Stylesheet.append_append,
        Refinement.addedByAll_append,
        Refinement.addedByAll_singleton]
      rfl
  | giveUp _ hBody ih =>
      rw [after_of_error hBody] at ih
      rw [sheet_after_givenUp hBody]
      exact ih
  | cascade _ ih =>
      rw [sheet_after_cascade]
      exact ih

/-
  A run leaves the properties of its layer with those that it
  assigns written over them.
-/
theorem Does.properties (h : Does action w done) :
    (after action w).layer.properties =
      w.layer.properties.overlay done.assigned := by
  induction h with
  | plain hPlain w => exact (hPlain.kept w).2
  | bindOk _ hFirst _ ihDone ihMore =>
      rw [after_of_ok hFirst] at ihDone
      rw [after_bind_of_ok hFirst, ihMore, ihDone]
      exact (Bag.overlay_append _ _ _).symm
  | bindError next _ hFirst ih =>
      rw [after_of_error hFirst] at ih
      rw [after_bind_of_error hFirst]
      exact ih
  | settled _ ih =>
      rw [after_settled]
      exact ih
  | reads _ ih => exact ih
  | @assign w next name value hInactive hSet =>
      rw [layer_after_assign hSet]
      rcases Layer.set_cases hSet with
        ⟨condition, hActive, _⟩ | ⟨settled, _, _, hNext⟩
      · rw [hInactive] at hActive
        cases hActive
      · rw [hNext]
        rfl
  | divert name value hActive =>
      have hSet := Layer.set_of_active name value hActive
      rw [layer_after_assign hSet]
      rfl
  | reject hSet =>
      rw [layer_after_rejected hSet]
      rfl
  | rename name w => rfl
  | finish _ _ _ =>
      rw [layer_after_refine]
      rfl
  | giveUp _ _ _ =>
      rw [layer_after_refine]
      rfl
  | cascade _ ih =>
      rw [properties_after_cascade]
      exact ih

/- The last assignment under a name is the one that counts. -/
theorem Does.get?_after
    (h : Does action w done)
    (name : String) :
    (after action w).layer.properties.get? name =
      (done.lastAssigned? name).or
        (w.layer.properties.get? name) := by
  rw [h.properties]
  exact Bag.get?_overlay_reverse _ _ _

end Build

end MapStyle
