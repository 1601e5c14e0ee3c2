import MapStyle.Proofs.Derivation

/-
  Runs of single actions: when they succeed, and what they
  leave of the layer and the stylesheet. The log is not looked
  at.

  Main statements:
    * `Action.bind_eq_ok`
    * `Action.settled_eq_ok`
    * `Action.finish_eq_ok`
    * `Build.evaluated_eq_ok`
    * `Build.call_of_none`
    * `Build.call_eq_ok_of_property`
    * `Body.performs_of_runSimple`
    * `Body.runSimple_of_performs`
-/

namespace MapStyle

------------------------------------------------------------
-- Sequences
------------------------------------------------------------

/- A sequence succeeds if both of its parts do. -/
theorem Action.bind_eq_ok
    {ε σ α β : Type}
    {first : EStateM ε σ α}
    {next : α → EStateM ε σ β}
    {s t : σ}
    {b : β} :
    (first >>= next) s = .ok b t ↔
      ∃ a u, first s = .ok a u ∧ next a u = .ok b t := by
  change
    (match first s with
      | .ok a u => next a u
      | .error e u => .error e u) = _ ↔ _
  cases first s with
  | ok a u =>
      constructor
      · intro h
        exact ⟨a, u, rfl, h⟩
      · rintro ⟨_, _, hFirst, h⟩
        cases hFirst
        exact h
  | error e u =>
      constructor
      · intro h
        cases h
      · rintro ⟨_, _, hFirst, _⟩
        cases hFirst

------------------------------------------------------------
-- Outcomes
------------------------------------------------------------

/- An outcome, with one state left behind in either case. -/
theorem Action.settled_eq_ok
    {ε σ α : Type}
    {outcome : Except ε α}
    {left t : σ}
    {a : α} :
    (match outcome with
      | .ok b => EStateM.Result.ok b left
      | .error e => .error e left) = .ok a t ↔
      outcome = .ok a ∧ t = left := by
  cases outcome with
  | ok b =>
      constructor
      · intro h
        cases h
        exact ⟨rfl, rfl⟩
      · rintro ⟨hOutcome, rfl⟩
        cases hOutcome
        rfl
  | error e =>
      constructor
      · intro h
        cases h
      · rintro ⟨hOutcome, _⟩
        cases hOutcome

/-
  Go on with the state of a result, in one way after a success
  and in another one after a failure.
-/
def Action.finish
    {ε σ τ α : Type}
    (left dropped : σ → τ) :
    EStateM.Result ε σ α → EStateM.Result ε τ α
  | .ok a s => .ok a (left s)
  | .error e s => .error e (dropped s)

theorem Action.finish_eq_ok
    {ε σ τ α : Type}
    {left dropped : σ → τ}
    {result : EStateM.Result ε σ α}
    {t : τ}
    {a : α} :
    finish left dropped result = .ok a t ↔
      ∃ s, result = .ok a s ∧ t = left s := by
  cases result with
  | ok b s =>
      constructor
      · intro h
        cases h
        exact ⟨s, rfl, rfl⟩
      · rintro ⟨_, hResult, rfl⟩
        cases hResult
        rfl
  | error e s =>
      constructor
      · intro h
        cases h
      · rintro ⟨_, hResult, _⟩
        cases hResult

/- Whether an action succeeds. -/
def Action.succeeds
    {ε σ α : Type}
    (action : EStateM ε σ α)
    (s : σ) : Bool :=
  match action s with
  | .ok _ _ => true
  | .error _ _ => false

theorem Action.exists_of_succeeds
    {ε σ α : Type}
    {action : EStateM ε σ α}
    {s : σ}
    (h : succeeds action s = true) :
    ∃ a t, action s = .ok a t := by
  unfold succeeds at h
  cases hOutcome : action s with
  | ok a t => exact ⟨a, t, rfl⟩
  | error e t =>
      rw [hOutcome] at h
      cases h

/- A chain of computations that succeeds does so at each link. -/
theorem Traced.bind_eq_ok
    {ε α β : Type}
    {first : Traced ε α}
    {next : α → Traced ε β}
    {b : β} :
    (first >>= next).outcome = .ok b ↔
      ∃ a,
        first.outcome = .ok a ∧ (next a).outcome = .ok b := by
  constructor
  · intro h
    cases hFirst : first.outcome with
    | ok a =>
        rw [outcome_bind hFirst] at h
        exact ⟨a, rfl, h⟩
    | error e =>
        change (Traced.bind first next).outcome = _ at h
        unfold Traced.bind at h
        rw [hFirst] at h
        cases h
  · rintro ⟨a, hFirst, hNext⟩
    rw [outcome_bind hFirst]
    exact hNext

/- Another kind of error leaves every success as it is. -/
theorem Traced.mapError_eq_ok
    {ε ε' α : Type}
    {f : ε → ε'}
    {outcome : Except ε α}
    {a : α} :
    outcome.mapError f = .ok a ↔ outcome = .ok a := by
  cases outcome with
  | ok b =>
      unfold Except.mapError
      constructor
      · intro h
        cases h
        rfl
      · intro h
        cases h
        rfl
  | error e =>
      constructor
      · intro h
        cases h
      · intro h
        cases h

------------------------------------------------------------
-- Computations on a workbench
------------------------------------------------------------

namespace Build

variable {α : Type}
variable {w u : Workbench}

theorem traced_eq_ok
    {ε : Type}
    {t : Traced ε α}
    {a : α} :
    traced t w = .ok a u ↔
      t.outcome = .ok a ∧
        u = { w with log := w.log ++ t.events } := by
  unfold traced
  exact Action.settled_eq_ok

theorem check_eq_ok
    {outcome : Except CompileError α}
    {a : α} :
    check outcome w = .ok a u ↔ outcome = .ok a ∧ u = w := by
  unfold check
  rw [traced_eq_ok]
  simp only [Traced.ofExcept, Traced.mapError_eq_ok,
    Array.appendList_nil]

/- Evaluating arguments changes nothing but the log. -/
theorem evaluated_eq_ok
    {args : List Argument}
    {values : List Value}
    (hEmpty : w.sheet.extensions = .empty) :
    evaluated (fun scope => scope.evaluateArguments args) w =
        .ok values u ↔
      w.layer.Evaluates args values ∧
        u =
          { w with
            log :=
              w.log ++
                ((Scope.inLayer w).evaluateArguments
                  args).events } := by
  unfold evaluated
  rw [traced_eq_ok]
  unfold Layer.Evaluates Traced.mapError Scope.inLayer
  rw [Traced.mapError_eq_ok, hEmpty]

------------------------------------------------------------
-- Calls
------------------------------------------------------------

/- An assignment on a workbench is one on its layer. -/
theorem assign_eq_ok
    {name : String}
    {value : Value} :
    assign name value w = .ok () u ↔
      ∃ next,
        w.layer.set name value = .ok next ∧
          u =
            { w with
              layer := next
              log := w.log ++ setEvents w.layer name } := by
  unfold assign EStateM.adaptExcept set
  cases w.layer.set name value with
  | ok next =>
      constructor
      · intro h
        cases h
        exact ⟨next, rfl, rfl⟩
      · rintro ⟨_, hNext, rfl⟩
        cases hNext
        rfl
  | error e =>
      constructor
      · intro h
        cases h
      · rintro ⟨_, hNext, _⟩
        cases hNext

/- Where no extension has it, a name has its plain meaning. -/
theorem call_of_none
    (run : Runner)
    {name : String}
    (args : List Value)
    (hNone : w.sheet.extensions.get? name = none) :
    call run name args w =
      callPlain name args (Meaning.ofName name)
        { w with
          log :=
            w.log.push (.resolved name (Meaning.ofName name)) } := by
  unfold call
  rw [hNone]
  rfl

theorem get?_of_empty
    (hEmpty : w.sheet.extensions = .empty)
    (name : String) :
    w.sheet.extensions.get? name = none := by
  rw [hEmpty]
  rfl

/- A call of a property that is no extension assigns it. -/
theorem call_eq_ok_of_property
    {run : Runner}
    {name : String}
    {cls : PropertyClass}
    {args : List Value}
    {answer : Option Value}
    (hNone : w.sheet.extensions.get? name = none)
    (hName : Meaning.ofName name = .property cls)
    (h : call run name args w = .ok answer u) :
    answer = none ∧
      w.layer.set name (assignedValue args) = .ok u.layer ∧
        u.sheet = w.sheet := by
  rw [call_of_none run args hNone, hName] at h
  rcases Action.bind_eq_ok.mp h with ⟨_, _, hAssign, hPure⟩
  cases hPure
  rcases assign_eq_ok.mp hAssign with ⟨next, hSet, rfl⟩
  exact ⟨rfl, hSet, rfl⟩

/- A function of the vocabulary can be called. -/
theorem functionCall_of_meaning
    {name f : String}
    (args : List Value)
    (hName : Meaning.ofName name = .function f) :
    ∃ v, Scope.functionCall f args = .ok v := by
  have hFunction : f = name ∧ Vocabulary.isFunction name = true := by
    unfold Meaning.ofName at hName
    split at hName
    · next hFunction =>
        cases hName
        exact ⟨rfl, hFunction⟩
    · split at hName
      · split at hName <;> cases hName
      · cases hName
  rcases hFunction with ⟨rfl, hFunction⟩
  unfold Scope.functionCall Expression.function?
  rw [if_pos hFunction]
  by_cases hLiteral : f = "literal"
  · rw [if_pos hLiteral]
    exact ⟨_, rfl⟩
  · rw [if_neg hLiteral]
    exact ⟨_, rfl⟩

/- What a call does to the layer. -/
theorem performs_of_call
    {run : Runner}
    {name : String}
    {args : List Value}
    {answer : Option Value}
    (hEmpty : w.sheet.extensions = .empty)
    (hKeyword : name ∉ Statement.keywords)
    (h : call run name args w = .ok answer u) :
    Layer.Performs name args w.layer u.layer ∧
      u.sheet = w.sheet := by
  have hNone := get?_of_empty hEmpty name
  have hPlain := h
  rw [call_of_none run args hNone] at hPlain
  cases hName : Meaning.ofName name with
  | property cls =>
      rcases call_eq_ok_of_property hNone hName h with
        ⟨_, hSet, hSheet⟩
      exact ⟨.assign hName hSet, hSheet⟩
  | function f =>
      rw [hName] at hPlain
      rcases Action.bind_eq_ok.mp hPlain with
        ⟨_, _, hCheck, hPure⟩
      cases hPure
      rcases check_eq_ok.mp hCheck with ⟨_, rfl⟩
      refine ⟨.value args w.layer hKeyword ?_, rfl⟩
      intro cls
      rw [hName]
      exact Meaning.noConfusion
  | extension =>
      rw [hName] at hPlain
      cases hPlain
      refine ⟨.value args w.layer hKeyword ?_, rfl⟩
      intro cls
      rw [hName]
      exact Meaning.noConfusion
  | field =>
      rw [hName] at hPlain
      cases hPlain
      refine ⟨.value args w.layer hKeyword ?_, rfl⟩
      intro cls
      rw [hName]
      exact Meaning.noConfusion

/- A call of a property succeeds if the assignment does. -/
theorem call_of_assign
    (run : Runner)
    {name : String}
    {cls : PropertyClass}
    {args : List Value}
    {next : Layer}
    (hEmpty : w.sheet.extensions = .empty)
    (hName : Meaning.ofName name = .property cls)
    (hSet :
      w.layer.set name (assignedValue args) = .ok next) :
    ∃ log,
      call run name args w =
        .ok none { w with layer := next, log := log } := by
  rw [call_of_none run args (get?_of_empty hEmpty name), hName]
  let logged : Workbench :=
    { w with
      log := w.log.push (.resolved name (.property cls)) }
  have hAssign := assign_eq_ok (w := logged).mpr
    ⟨next, hSet, rfl⟩
  exact ⟨_, Action.bind_eq_ok.mpr ⟨(), _, hAssign, rfl⟩⟩

/- A call of anything but a property succeeds. -/
theorem call_of_value
    (run : Runner)
    {name : String}
    (args : List Value)
    (hEmpty : w.sheet.extensions = .empty)
    (hName : ∀ cls, Meaning.ofName name ≠ .property cls) :
    ∃ answer log,
      call run name args w =
        .ok answer { w with log := log } := by
  rw [call_of_none run args (get?_of_empty hEmpty name)]
  cases hMeaning : Meaning.ofName name with
  | property cls => exact absurd hMeaning (hName cls)
  | function f =>
      rcases functionCall_of_meaning args hMeaning with
        ⟨v, hCall⟩
      let logged : Workbench :=
        { w with log := w.log.push (.resolved name (.function f)) }
      have hCheck := check_eq_ok (w := logged).mpr
        ⟨hCall, rfl⟩
      exact ⟨some v, _,
        Action.bind_eq_ok.mpr ⟨v, _, hCheck, rfl⟩⟩
  | extension => exact ⟨none, _, rfl⟩
  | field => exact ⟨_, _, rfl⟩

end Build

------------------------------------------------------------
-- Statements without a block of their own
------------------------------------------------------------

namespace Body

variable {w u : Workbench}

/- Names that are no keywords are called. -/
theorem runSimple_of_not_keyword
    (run : Runner)
    {name : String}
    (args : List Value)
    (hKeyword : name ∉ Statement.keywords) :
    runSimple run name args = (do
      match ← Build.call run name args with
      | some v => Build.emit (.discarded name v)
      | none => pure ()) := by
  unfold runSimple
  split
  · exact absurd (by decide) hKeyword
  · exact absurd (by decide) hKeyword
  · exact absurd (by decide) hKeyword
  · exact absurd (by decide) hKeyword
  · rfl

theorem performs_of_runSimple
    {run : Runner}
    {name : String}
    {args : List Value}
    (hEmpty : w.sheet.extensions = .empty)
    (hOn : name ≠ "on")
    (hCascade : name ≠ "cascade")
    (h : runSimple run name args w = .ok () u) :
    Layer.Performs name args w.layer u.layer ∧
      u.sheet = w.sheet := by
  by_cases hKeyword : name ∈ Statement.keywords
  · simp only [Statement.keywords, List.mem_cons,
      List.not_mem_nil, or_false, hOn, hCascade, false_or]
      at hKeyword
    rcases hKeyword with rfl | rfl | rfl | rfl
    · cases h
      exact ⟨.uncascaded args w.layer, rfl⟩
    · cases h
      exact ⟨.filter args w.layer, rfl⟩
    · rcases Action.bind_eq_ok.mp h with
        ⟨text, _, hCheck, hRename⟩
      rcases Build.check_eq_ok.mp hCheck with ⟨hText, rfl⟩
      cases hRename
      exact ⟨.rename _ hText, rfl⟩
    · cases h
      exact ⟨.suppress args w.layer, rfl⟩
  · rw [runSimple_of_not_keyword run args hKeyword] at h
    rcases Action.bind_eq_ok.mp h with
      ⟨answer, v, hCall, hEmit⟩
    have hSame : u.layer = v.layer ∧ u.sheet = v.sheet := by
      cases answer with
      | none =>
          cases hEmit
          exact ⟨rfl, rfl⟩
      | some value =>
          cases hEmit
          exact ⟨rfl, rfl⟩
    rw [hSame.1, hSame.2]
    exact Build.performs_of_call hEmpty hKeyword hCall

theorem runSimple_of_performs
    (run : Runner)
    {name : String}
    {args : List Value}
    {next : Layer}
    (hEmpty : w.sheet.extensions = .empty)
    (h : Layer.Performs name args w.layer next) :
    ∃ log,
      runSimple run name args w =
        .ok () { w with layer := next, log := log } := by
  generalize hLayer : w.layer = layer at h
  cases h with
  | uncascaded => subst hLayer; exact ⟨_, rfl⟩
  | filter => subst hLayer; exact ⟨_, rfl⟩
  | rename _ hText =>
      subst hLayer
      have hCheck := Build.check_eq_ok (w := w).mpr
        ⟨hText, rfl⟩
      exact ⟨_, Action.bind_eq_ok.mpr ⟨_, _, hCheck, rfl⟩⟩
  | suppress => subst hLayer; exact ⟨_, rfl⟩
  | assign hName hSet =>
      subst hLayer
      have hKeyword :=
        Statement.not_mem_keywords_of_property hName
      rcases Build.call_of_assign run hEmpty hName hSet with
        ⟨log, hCall⟩
      rw [runSimple_of_not_keyword run args hKeyword]
      exact ⟨log, Action.bind_eq_ok.mpr ⟨_, _, hCall, rfl⟩⟩
  | value _ _ hKeyword hName =>
      subst hLayer
      rcases Build.call_of_value run args hEmpty hName with
        ⟨answer, log, hCall⟩
      rw [runSimple_of_not_keyword run args hKeyword]
      cases answer with
      | none =>
          exact ⟨log,
            Action.bind_eq_ok.mpr ⟨_, _, hCall, rfl⟩⟩
      | some v =>
          exact ⟨_, Action.bind_eq_ok.mpr ⟨_, _, hCall, rfl⟩⟩

end Body

end MapStyle
