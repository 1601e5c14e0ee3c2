import Mathlib
import MapStyle.Evaluation.Term
import MapStyle.Program.Reader
import MapStyle.Proofs.IntegerArithmetic

/-
  When arithmetic between integers fails: where the divisor is
  zero, and where the mathematical result is out of range. One
  remainder is refused besides, that of the least integer
  divided by minus one: it is zero, but the quotient that is
  tested in its place is out of range.

  Key definitions include:
    * `Integer.elementary`
    * `Integer.InRange`
    * `Integer.LacksResult`
    * `Integer.IsLeastRemainder`

  Main statements:
    * `Integer.not_isDivisible_iff`
    * `Integer.exists_result_iff`
    * `Integer.fold?_error_iff`
-/

namespace MapStyle

namespace Integer

------------------------------------------------------------
-- Reasons of arithmetic
------------------------------------------------------------

/- The operators whose result is an integer for all operands. -/
def elementary : List BinaryOp :=
  [.add, .sub, .mul, .div, .mod]

/- The integers that sixty-four bits can hold. -/
def InRange (n : Int) : Prop :=
  -0x8000000000000000 ≤ n ∧ n < 0x8000000000000000

instance (n : Int) : Decidable (InRange n) := by
  unfold InRange
  infer_instance

/- A quotient or remainder is asked for; the divisor is zero. -/
def DividesByZero
    (op : BinaryOp)
    (b : Int64) : Prop :=
  (op = .div ∨ op = .mod) ∧ b = 0

instance
    (op : BinaryOp)
    (b : Int64) : Decidable (DividesByZero op b) := by
  unfold DividesByZero
  infer_instance

/- There is no mathematical result, or none in range. -/
def LacksResult
    (a : Int64)
    (op : BinaryOp)
    (b : Int64) : Prop :=
  DividesByZero op b ∨ ¬ InRange (exact a.toInt op b.toInt)

/- The remainder of the least integer divided by minus one. -/
def IsLeastRemainder
    (a : Int64)
    (op : BinaryOp)
    (b : Int64) : Prop :=
  op = .mod ∧ a = Int64.minValue ∧ b = -1

/- The error of an operator that gives no result. -/
def refusal
    (a : Int64)
    (op : BinaryOp)
    (b : Int64) : CompileError :=
  if DividesByZero op b then
    .argument .divisionByZero
  else
    overflow a op b

------------------------------------------------------------
-- Divisions
------------------------------------------------------------

variable {a b : Int64} {op : BinaryOp}

theorem exists_toInt_eq_iff {n : Int} :
    (∃ m : Int64, m.toInt = n) ↔ InRange n := by
  constructor
  · rintro ⟨m, rfl⟩
    exact ⟨m.le_toInt, m.toInt_lt⟩
  · rintro ⟨hLow, hHigh⟩
    rcases exists_ofInt? hLow hHigh with ⟨m, _, hm⟩
    exact ⟨m, hm⟩

theorem toInt_eq_zero_iff : b.toInt = 0 ↔ b = 0 := by
  rw [← Int64.toInt_inj]
  rfl

/- What has a cut quotient has one that is rounded down. -/
theorem isDivisible_of_cutQuotient?
    {q : Int64}
    (h : cutQuotient? a b = some q) : IsDivisible a b := by
  rcases exists_cut h with ⟨r, hRemainder, hCut⟩
  rcases hCut.exists_quotient h hRemainder with ⟨d, _, hFloor⟩
  exact ⟨hCut.divisor, d, hFloor⟩

/-
  Besides zero, only minus one cannot divide everything: the
  quotient of the least integer is one above the range.
-/
theorem not_isDivisible_iff :
    ¬ IsDivisible a b ↔
      b = 0 ∨ a = Int64.minValue ∧ b = -1 := by
  constructor
  · intro h
    cases hQuotient : cutQuotient? a b with
    | some q =>
        exact absurd (isDivisible_of_cutQuotient? hQuotient) h
    | none =>
        rcases of_cutQuotient?_eq_none hQuotient with
          hZero | ⟨hLeast, hOne⟩
        · exact Or.inl (toInt_eq_zero_iff.mp hZero)
        · exact
            Or.inr
              ⟨Int64.toInt_inj.mp hLeast,
                Int64.toInt_inj.mp hOne⟩
  · rintro (rfl | ⟨rfl, rfl⟩)
    · rintro ⟨hDivisor, _⟩
      exact hDivisor rfl
    · exact not_isDivisible rfl

theorem isDivisible_iff_inRange :
    IsDivisible a b ↔
      b ≠ 0 ∧ InRange (exact a.toInt .div b.toInt) := by
  unfold IsDivisible
  rw [exists_toInt_eq_iff, Ne, toInt_eq_zero_iff]
  rfl

/- The least integer is minus one taken just above the range. -/
theorem exact_least :
    exact Int64.minValue.toInt .div (-1 : Int64).toInt =
        0x8000000000000000 ∧
      exact Int64.minValue.toInt .mod (-1 : Int64).toInt = 0 := by
  have hDiv :
      exact Int64.minValue.toInt .div (-1 : Int64).toInt =
        0x8000000000000000 :=
    floor_eq_of_isBetween (r := 0) (by decide)
      (Or.inr ⟨by decide, by decide⟩)
  refine ⟨hDiv, ?_⟩
  calc exact Int64.minValue.toInt .mod (-1 : Int64).toInt
      = Int64.minValue.toInt - (-1 : Int64).toInt *
          exact Int64.minValue.toInt .div (-1 : Int64).toInt :=
        rfl
    _ = 0 := by
        rw [hDiv]
        decide

/- A remainder is smaller than its divisor. -/
theorem inRange_exact_mod
    (h : b ≠ 0) :
    InRange (exact a.toInt .mod b.toInt) := by
  by_cases hDivisible : IsDivisible a b
  · rcases division_cases a b with
      ⟨_, m, _, _, _, _, hLeft, _⟩ | ⟨_, _, hNot⟩
    · exact exists_toInt_eq_iff.mp ⟨m, hLeft⟩
    · exact absurd hDivisible hNot
  · rcases not_isDivisible_iff.mp hDivisible with
      hZero | ⟨rfl, rfl⟩
    · exact absurd hZero h
    · rw [exact_least.2]
      decide

------------------------------------------------------------
-- Results
------------------------------------------------------------

/-
  An operator has a result unless arithmetic gives none; only
  the remainder asks for a quotient besides.
-/
theorem exists_result_iff
    (hOp : op ∈ elementary) :
    (∃ n : Int64,
      n.toInt = exact a.toInt op b.toInt ∧ IsDefined a op b) ↔
      ¬ (LacksResult a op b ∨ IsLeastRemainder a op b) := by
  rw [exists_and_right, exists_toInt_eq_iff]
  unfold LacksResult DividesByZero IsLeastRemainder
  cases op with
  | add => simp [IsDefined]
  | sub => simp [IsDefined]
  | mul => simp [IsDefined]
  | div =>
      simp only [IsDefined, isDivisible_iff_inRange]
      tauto
  | mod =>
      have hDefined := not_isDivisible_iff (a := a) (b := b)
      have hSmall := inRange_exact_mod (a := a) (b := b)
      simp only [IsDefined]
      tauto
  | _ => simp [elementary] at hOp

/- The mathematical remainder that is refused is zero. -/
theorem IsLeastRemainder.not_lacksResult
    (h : IsLeastRemainder a op b) :
    ¬ LacksResult a op b := by
  rcases h with ⟨rfl, rfl, rfl⟩
  rintro (⟨_, hZero⟩ | hOutside)
  · exact absurd hZero (by decide)
  · exact hOutside (inRange_exact_mod (by decide))

------------------------------------------------------------
-- Failures
------------------------------------------------------------

theorem fold?_eq_fold
    (hOp : op ∈ elementary) :
    BinaryOp.fold? (.int a) op (.int b) = fold a op b := by
  cases op with
  | and => simp [elementary] at hOp
  | or => simp [elementary] at hOp
  | _ => rfl

theorem isArithmetic_of_mem
    (hOp : op ∈ elementary) : IsArithmetic op b := by
  cases op with
  | add => trivial
  | sub => trivial
  | mul => trivial
  | div => trivial
  | mod => trivial
  | _ => simp [elementary] at hOp

/- What fails has no result that is in range. -/
theorem exists_fold_eq_error_iff
    (hOp : op ∈ elementary) :
    (∃ e, fold a op b = .error e) ↔
      LacksResult a op b ∨ IsLeastRemainder a op b := by
  have hOk (value : Option Value) :
      fold a op b = .ok value ↔
        ∃ n,
          value = some (.int n) ∧
            n.toInt = exact a.toInt op b.toInt ∧
              IsDefined a op b :=
    fold_eq_ok_iff (isArithmetic_of_mem hOp)
  have hResult := exists_result_iff (a := a) (b := b) hOp
  rw [← not_iff_not, ← hResult]
  cases hFold : fold a op b with
  | error e =>
      have hNone (n : Int64) := mt (hOk (some (.int n))).mpr
      simp only [hFold, reduceCtorEq, not_false_eq_true,
        forall_const] at hNone
      simpa using hNone
  | ok value =>
      rcases (hOk value).mp hFold with
        ⟨n, _, hExact, hDefined⟩
      simpa using ⟨⟨n, hExact⟩, hDefined⟩

theorem checked_eq_error
    {result : Option Int64}
    {e : CompileError}
    (h : checked a op b result = .error e) :
    e = overflow a op b := by
  cases result with
  | none =>
      cases h
      rfl
  | some n => cases h

/- A division tests its divisor before it looks for a result. -/
theorem eq_refusal_of_division
    {result : Option Int64}
    {e : CompileError}
    (hOp : op = .div ∨ op = .mod)
    (h :
      (if b.toInt = 0 then
          .error (.argument .divisionByZero)
        else
          checked a op b result) =
        .error e) :
    e = refusal a op b := by
  have hDivides : DividesByZero op b ↔ b.toInt = 0 := by
    rw [toInt_eq_zero_iff]
    exact and_iff_right hOp
  unfold refusal
  split at h
  · next hZero =>
      rw [if_pos (hDivides.mpr hZero)]
      cases h
      rfl
  · next hDivisor =>
      rw [if_neg (mt hDivides.mp hDivisor)]
      exact checked_eq_error h

/- The error tells a division by zero from all other failures. -/
theorem eq_refusal_of_fold
    {e : CompileError}
    (hOp : op ∈ elementary)
    (h : fold a op b = .error e) :
    e = refusal a op b := by
  cases op with
  | add => exact checked_eq_error h
  | sub => exact checked_eq_error h
  | mul => exact checked_eq_error h
  | div => exact eq_refusal_of_division (Or.inl rfl) h
  | mod => exact eq_refusal_of_division (Or.inr rfl) h
  | _ => simp [elementary] at hOp

/-
  Between integers, an elementary operator fails exactly if
  the divisor is zero, the mathematical result is out of range
  or the remainder of the least integer divided by minus one
  is asked for. That remainder is the only failure without a
  reason of arithmetic. The error is that of a division by
  zero for the divisor zero, and that of an overflow else.
-/
theorem fold?_error_iff
    (a b : Int64)
    {op : BinaryOp}
    (hOp : op ∈ elementary) :
    ((∃ e, BinaryOp.fold? (.int a) op (.int b) = .error e) ↔
        LacksResult a op b ∨ IsLeastRemainder a op b) ∧
      (((∃ e, BinaryOp.fold? (.int a) op (.int b) = .error e) ↔
          LacksResult a op b) ↔
        ¬ IsLeastRemainder a op b) ∧
      ∀ e,
        BinaryOp.fold? (.int a) op (.int b) = .error e →
          e = refusal a op b := by
  rw [fold?_eq_fold hOp]
  have hFails := exists_fold_eq_error_iff (a := a) (b := b) hOp
  refine ⟨hFails, ?_, fun e => eq_refusal_of_fold hOp⟩
  rw [hFails, or_iff_left_iff_imp]
  constructor
  · intro hReason hLeast
    exact hLeast.not_lacksResult (hReason hLeast)
  · intro hOther hLeast
    exact absurd hLeast hOther

/- The quotient of the least integer by minus one is too large. -/
theorem fold?_error_iff_leastQuotient :
    .div ∈ elementary ∧
      LacksResult Int64.minValue .div (-1) ∧
      BinaryOp.fold? (.int Int64.minValue) .div (.int (-1)) =
        .error (overflow Int64.minValue .div (-1)) := by
  have hLacks : LacksResult Int64.minValue .div (-1) := by
    refine Or.inr ?_
    rw [exact_least.1]
    decide
  have hOp : .div ∈ elementary := by decide
  rcases fold?_error_iff Int64.minValue (-1) hOp with
    ⟨hFails, _, hError⟩
  rcases hFails.mpr (Or.inl hLacks) with ⟨e, hFold⟩
  refine ⟨hOp, hLacks, ?_⟩
  rw [hFold, hError e hFold]
  rfl

/- The least integer as a sum, and its remainder by minus one. -/
def leastRemainder : Term :=
  .binary
    (.binary
      (.unary .neg (.literal (.int 9223372036854775807))) .sub
      (.literal (.int 1)))
    .mod (.unary .neg (.literal (.int 1)))

/-
  The remainder is zero, which is in range, and yet it is
  refused as an overflow.
-/
theorem leastRemainder_refused :
    Term.read "(-9223372036854775807 - 1) % -1" =
        .ok leastRemainder ∧
      (Scope.evaluate ⟨.empty, none⟩ leastRemainder).outcome =
        .error (overflow Int64.minValue .mod (-1)) ∧
      BinaryOp.fold? (.int Int64.minValue) .mod (.int (-1)) =
        .error (overflow Int64.minValue .mod (-1)) ∧
      exact Int64.minValue.toInt .mod (-1 : Int64).toInt = 0 ∧
      ¬ LacksResult Int64.minValue .mod (-1) := by
  have hRead :
      Term.read "(-9223372036854775807 - 1) % -1" =
        .ok leastRemainder := by
    cbv
  have hLeast : IsLeastRemainder Int64.minValue .mod (-1) :=
    ⟨rfl, rfl, rfl⟩
  exact
    ⟨hRead, rfl, rfl, exact_least.2, hLeast.not_lacksResult⟩

end Integer

end MapStyle
