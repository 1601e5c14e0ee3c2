import Mathlib.Data.Rat.Floor
import Mathlib.Tactic.Linarith
import MapStyle.Evaluation.Operator

/-
  Arithmetic between integers gives the mathematical result
  wherever it gives one: sums, differences, products, powers,
  quotients rounded down and remainders with the sign of the
  divisor. The steps behind a quotient and a remainder whose
  results are not tested for always have one.

  Key definitions include:
    * `Integer.exact`
    * `Integer.IsArithmetic`
    * `Integer.IsDivisible`

  Main statements:
    * `Integer.power?_eq`
    * `Integer.quotient_eq_ok_iff`
    * `Integer.remainder_eq_ok_iff`
    * `Integer.fold?_exact`
-/

namespace MapStyle

namespace Integer

------------------------------------------------------------
-- Mathematical results
------------------------------------------------------------

/-
  The mathematical result of an operator. A quotient is
  rounded down, and what it leaves is the remainder.
-/
def exact
    (a : Int)
    (op : BinaryOp)
    (b : Int) : Int :=
  match op with
  | .add => a + b
  | .sub => a - b
  | .mul => a * b
  | .div => ⌊(a : ℚ) / b⌋
  | .mod => a - b * ⌊(a : ℚ) / b⌋
  | .pow => a ^ b.toNat
  | _ => 0

/-
  The operators whose result between integers is an integer.
  The exponent of a power must be one.
-/
def IsArithmetic
    (op : BinaryOp)
    (b : Int64) : Prop :=
  match op with
  | .add | .sub | .mul | .div | .mod => True
  | .pow => 0 ≤ b.toInt ∧ b.toInt ≤ 0xffffffff
  | _ => False

/- Some integer is the quotient that is rounded down. -/
def IsDivisible (a b : Int64) : Prop :=
  b.toInt ≠ 0 ∧
    ∃ q : Int64, q.toInt = ⌊(a.toInt : ℚ) / b.toInt⌋

/- Divisions need a quotient, also those for a remainder. -/
def IsDefined
    (a : Int64)
    (op : BinaryOp)
    (b : Int64) : Prop :=
  match op with
  | .div | .mod => IsDivisible a b
  | _ => True

/- A remainder that lies between zero and the divisor. -/
def IsBetween (r b : Int) : Prop :=
  (0 ≤ r ∧ r < b) ∨ (b < r ∧ r ≤ 0)

------------------------------------------------------------
-- Range
------------------------------------------------------------

variable {a b q r : Int64}

theorem ofInt?_eq_some_iff
    {n : Int}
    {m : Int64} :
    ofInt? n = some m ↔ m.toInt = n := by
  refine ⟨toInt_of_ofInt?, ?_⟩
  rintro rfl
  unfold ofInt?
  rw [if_pos ⟨m.le_toInt, m.toInt_lt⟩, Int64.ofInt_toInt]

/- What lies in range is an integer. -/
theorem exists_ofInt?
    {n : Int}
    (hLow : -0x8000000000000000 ≤ n)
    (hHigh : n < 0x8000000000000000) :
    ∃ m, ofInt? n = some m ∧ m.toInt = n := by
  refine ⟨Int64.ofInt n, if_pos ⟨hLow, hHigh⟩, ?_⟩
  exact Int64.toInt_ofInt_of_le hLow hHigh

theorem ofInt?_eq_none
    {n : Int}
    (h : n < -0x8000000000000000 ∨ 0x8000000000000000 ≤ n) :
    ofInt? n = none := by
  unfold ofInt?
  rw [if_neg]
  omega

------------------------------------------------------------
-- Powers
------------------------------------------------------------

/- A base below two has only its sign to give. -/
theorem pow_of_natAbs_lt_two
    {base : Int}
    (h : base.natAbs < 2)
    (exponent : Nat) :
    base ^ exponent =
      if exponent = 0 then 1
      else if exponent % 2 = 0 then base * base
      else base := by
  have hBase : base = -1 ∨ base = 0 ∨ base = 1 := by omega
  by_cases hZero : exponent = 0
  · rw [if_pos hZero, hZero, pow_zero]
  · rw [if_neg hZero]
    rcases hBase with rfl | rfl | rfl
    · rcases Nat.even_or_odd exponent with hEven | hOdd
      · rw [hEven.neg_one_pow, if_pos (Nat.even_iff.mp hEven)]
        rfl
      · rw [hOdd.neg_one_pow, if_neg]
        rw [Nat.odd_iff.mp hOdd]
        decide
    · rw [zero_pow hZero]
      split <;> rfl
    · rw [one_pow]
      split <;> rfl

/- A larger base is out of range behind the number of bits. -/
theorem ofInt?_pow_eq_none
    {base : Int}
    {exponent : Nat}
    (hBase : 2 ≤ base.natAbs)
    (hExponent : 64 < exponent) :
    ofInt? (base ^ exponent) = none := by
  have hLarge : 2 ^ 65 ≤ (base ^ exponent).natAbs := by
    rw [Int.natAbs_pow]
    calc 2 ^ 65
        ≤ 2 ^ exponent :=
          Nat.pow_le_pow_right (by decide) hExponent
      _ ≤ base.natAbs ^ exponent :=
          Nat.pow_le_pow_left hBase exponent
  apply ofInt?_eq_none
  omega

theorem power?_eq
    (base : Int)
    (exponent : Nat) :
    power? base exponent = ofInt? (base ^ exponent) := by
  unfold power?
  by_cases hBase : base.natAbs < 2
  · rw [if_pos hBase, pow_of_natAbs_lt_two hBase]
    split
    · rfl
    · split <;> rfl
  · rw [if_neg hBase]
    by_cases hExponent : exponent ≤ 64
    · rw [if_pos hExponent]
      rfl
    · rw [if_neg hExponent, ofInt?_pow_eq_none] <;> omega

------------------------------------------------------------
-- Cut quotients
------------------------------------------------------------

/-
  The quotient and the remainder of a division that is cut
  towards zero. The remainder is smaller than the divisor and
  on the side of the dividend.
-/
structure Cut (a b q r : Int64) : Prop where
  divisor : b.toInt ≠ 0
  split : b.toInt * q.toInt + r.toInt = a.toInt
  small : r.toInt.natAbs < b.toInt.natAbs
  quotient_small :
    q.toInt.natAbs = a.toInt.natAbs / b.toInt.natAbs
  sign : r.toInt ≠ 0 → (r.toInt < 0 ↔ a.toInt < 0)

theorem cutQuotient?_eq_some_iff :
    cutQuotient? a b = some q ↔
      b.toInt ≠ 0 ∧ q.toInt = a.toInt.tdiv b.toInt := by
  unfold cutQuotient?
  split
  · next hZero => simp [hZero]
  · next hDivisor =>
      rw [ofInt?_eq_some_iff]
      simp [hDivisor]

/- Where there is a cut quotient, there is its remainder. -/
theorem exists_cut
    (h : cutQuotient? a b = some q) :
    ∃ r, cutRemainder? a b = some r ∧ Cut a b q r := by
  rcases cutQuotient?_eq_some_iff.mp h with ⟨hDivisor, hQuotient⟩
  have hAbs := Int.natAbs_tmod a.toInt b.toInt
  have hSmall : a.toInt.natAbs % b.toInt.natAbs <
      b.toInt.natAbs :=
    Nat.mod_lt _ (Int.natAbs_pos.mpr hDivisor)
  have hLow := b.le_toInt
  have hHigh := b.toInt_lt
  rcases exists_ofInt? (n := a.toInt.tmod b.toInt) (by omega)
      (by omega) with
    ⟨r, hFound, hRemainder⟩
  refine ⟨r, ?_, ?_⟩
  · unfold cutRemainder?
    rw [h]
    exact hFound
  · refine ⟨hDivisor, ?_, ?_, ?_, ?_⟩
    · rw [hQuotient, hRemainder]
      exact Int.mul_tdiv_add_tmod _ _
    · rw [hRemainder, hAbs]
      exact hSmall
    · rw [hQuotient]
      exact Int.natAbs_tdiv _ _
    · intro hNe
      rw [hRemainder] at hNe ⊢
      rcases lt_or_ge a.toInt 0 with hSide | hSide
      · have hNeg := Int.tmod_nonneg b.toInt (a := -a.toInt)
          (by omega)
        rw [Int.neg_tmod] at hNeg
        omega
      · have hNonneg := Int.tmod_nonneg b.toInt hSide
        omega

/-
  Only two divisions have no cut quotient: that by zero, and
  that of the least integer by minus one.
-/
theorem of_cutQuotient?_eq_none
    (h : cutQuotient? a b = none) :
    b.toInt = 0 ∨
      a.toInt = -0x8000000000000000 ∧ b.toInt = -1 := by
  by_contra hOther
  rw [not_or] at hOther
  rcases hOther with ⟨hDivisor, hLeast⟩
  have hLow := a.le_toInt
  have hHigh := a.toInt_lt
  have hRange :
      -0x8000000000000000 ≤ a.toInt.tdiv b.toInt ∧
        a.toInt.tdiv b.toInt < 0x8000000000000000 := by
    by_cases hUnit : b.toInt.natAbs = 1
    · have hSign : b.toInt = 1 ∨ b.toInt = -1 := by omega
      rcases hSign with hOne | hOne
      · rw [hOne, Int.tdiv_one]
        exact ⟨hLow, hHigh⟩
      · rw [hOne, Int.tdiv_neg, Int.tdiv_one]
        omega
    · have hAbs :
          (a.toInt.tdiv b.toInt).natAbs =
            a.toInt.natAbs / b.toInt.natAbs :=
        Int.natAbs_tdiv _ _
      have hHalf :
          a.toInt.natAbs / b.toInt.natAbs ≤
            a.toInt.natAbs / 2 :=
        Nat.div_le_div_left (by omega) (by decide)
      omega
  rcases exists_ofInt? hRange.1 hRange.2 with ⟨q, hFound, _⟩
  unfold cutQuotient? at h
  rw [if_neg hDivisor, hFound] at h
  cases h

------------------------------------------------------------
-- Rounding down
------------------------------------------------------------

/- A remainder on the side of the divisor tells the quotient. -/
theorem floor_eq_of_isBetween
    {a b q r : Int}
    (hSplit : b * q + r = a)
    (hBetween : IsBetween r b) :
    ⌊(a : ℚ) / b⌋ = q := by
  have hCast : (a : ℚ) = b * q + r := by
    exact_mod_cast hSplit.symm
  rw [Int.floor_eq_iff, hCast]
  rcases hBetween with ⟨hLow, hHigh⟩ | ⟨hLow, hHigh⟩
  · have hPos : (0 : ℚ) < b := by
      exact_mod_cast lt_of_le_of_lt hLow hHigh
    have hLow' : (0 : ℚ) ≤ r := by exact_mod_cast hLow
    have hHigh' : (r : ℚ) < b := by exact_mod_cast hHigh
    rw [le_div_iff₀ hPos, div_lt_iff₀ hPos]
    constructor <;> linarith
  · have hNeg : (b : ℚ) < 0 := by
      exact_mod_cast lt_of_lt_of_le hLow hHigh
    have hLow' : (b : ℚ) < r := by exact_mod_cast hLow
    have hHigh' : (r : ℚ) ≤ 0 := by exact_mod_cast hHigh
    rw [le_div_iff_of_neg hNeg, div_lt_iff_of_neg hNeg]
    constructor <;> linarith

variable {d : Int64}

/- A remainder on the other side is moved by the divisor. -/
theorem Cut.corrected
    (h : Cut a b q r)
    (hNe : r.toInt ≠ 0)
    (hDiffer : signsDiffer a b = true) :
    b.toInt * (q.toInt - 1) + (r.toInt + b.toInt) = a.toInt ∧
      IsBetween (r.toInt + b.toInt) b.toInt := by
  have hSmall := h.small
  have hSign := h.sign hNe
  refine ⟨?_, ?_⟩
  · rw [← h.split]
    ring
  · unfold IsBetween
    simp only [signsDiffer, bne_iff_ne, ne_eq,
      decide_eq_decide] at hDiffer
    omega

/- Any other remainder is on the side of the divisor. -/
theorem Cut.isBetween
    (h : Cut a b q r)
    (hSame : r.toInt = 0 ∨ signsDiffer a b = false) :
    IsBetween r.toInt b.toInt := by
  have hSmall := h.small
  have hSign := h.sign
  unfold IsBetween
  simp only [signsDiffer, bne_eq_false_iff_eq,
    decide_eq_decide] at hSame
  omega

/- A remainder that is not zero has the sign of the dividend. -/
theorem Cut.signsDiffer_eq
    (h : Cut a b q r)
    (hNe : r.toInt ≠ 0) :
    signsDiffer r b = signsDiffer a b := by
  unfold signsDiffer
  rw [decide_eq_decide.mpr (h.sign hNe)]

/-
  Where the quotient is corrected, it is at most half as large
  as the dividend, so that one less is in range.
-/
theorem Cut.exists_pred
    (h : Cut a b q r)
    (hNe : r.toInt ≠ 0) :
    ∃ d, ofInt? (q.toInt - 1) = some d ∧
      d.toInt = q.toInt - 1 := by
  have hSmall := h.small
  have hQuotient := h.quotient_small
  have hHalf :
      a.toInt.natAbs / b.toInt.natAbs ≤ a.toInt.natAbs / 2 :=
    Nat.div_le_div_left (by omega) (by decide)
  have hLow := a.le_toInt
  have hHigh := a.toInt_lt
  exact exists_ofInt? (by omega) (by omega)

/- Where the remainder is corrected, the signs cancel. -/
theorem Cut.exists_moved
    (h : Cut a b q r)
    (hDiffer : signsDiffer r b = true) :
    ∃ m, ofInt? (r.toInt + b.toInt) = some m ∧
      m.toInt = r.toInt + b.toInt := by
  have hSmall := h.small
  have hLow := b.le_toInt
  have hHigh := b.toInt_lt
  simp only [signsDiffer, bne_iff_ne, ne_eq,
    decide_eq_decide] at hDiffer
  exact exists_ofInt? (by omega) (by omega)

/- A cut quotient is corrected to the one that is rounded down. -/
theorem Cut.exists_quotient
    (h : Cut a b q r)
    (hQuotient : cutQuotient? a b = some q)
    (hRemainder : cutRemainder? a b = some r) :
    ∃ d,
      quotient a b = .ok d ∧
        d.toInt = ⌊(a.toInt : ℚ) / b.toInt⌋ := by
  have hSteps :
      quotient a b =
        if r.toInt ≠ 0 && signsDiffer a b then
          unguarded (ofInt? (q.toInt - 1))
        else
          .ok q := by
    unfold quotient
    rw [hQuotient, hRemainder]
    rfl
  rw [hSteps]
  by_cases hCorrect : r.toInt ≠ 0 ∧ signsDiffer a b = true
  · rcases h.exists_pred hCorrect.1 with ⟨d, hFound, hPred⟩
    rcases h.corrected hCorrect.1 hCorrect.2 with
      ⟨hSplit, hBetween⟩
    refine ⟨d, ?_, ?_⟩
    · rw [if_pos (by simpa using hCorrect), hFound]
      rfl
    · rw [hPred, floor_eq_of_isBetween hSplit hBetween]
  · have hSame : r.toInt = 0 ∨ signsDiffer a b = false := by
      simpa [or_iff_not_imp_left] using hCorrect
    refine ⟨q, ?_, ?_⟩
    · rw [if_neg (by simpa using hCorrect)]
    · rw [floor_eq_of_isBetween h.split (h.isBetween hSame)]

/- A cut remainder is corrected to that of the quotient below. -/
theorem Cut.exists_remainder
    (h : Cut a b q r)
    (hRemainder : cutRemainder? a b = some r) :
    ∃ m,
      remainder a b = .ok m ∧
        m.toInt =
          a.toInt - b.toInt * ⌊(a.toInt : ℚ) / b.toInt⌋ ∧
        IsBetween m.toInt b.toInt := by
  have hSteps :
      remainder a b =
        if r.toInt ≠ 0 && signsDiffer r b then
          unguarded (ofInt? (r.toInt + b.toInt))
        else
          .ok r := by
    unfold remainder
    rw [hRemainder]
    rfl
  rw [hSteps]
  by_cases hCorrect : r.toInt ≠ 0 ∧ signsDiffer r b = true
  · have hDiffer := hCorrect.2
    rw [h.signsDiffer_eq hCorrect.1] at hDiffer
    rcases h.exists_moved hCorrect.2 with ⟨m, hFound, hMoved⟩
    rcases h.corrected hCorrect.1 hDiffer with
      ⟨hSplit, hBetween⟩
    refine ⟨m, ?_, ?_, ?_⟩
    · rw [if_pos (by simpa using hCorrect), hFound]
      rfl
    · rw [floor_eq_of_isBetween hSplit hBetween, hMoved]
      linarith
    · rw [hMoved]
      exact hBetween
  · have hSame : r.toInt = 0 ∨ signsDiffer a b = false := by
      by_cases hZero : r.toInt = 0
      · exact Or.inl hZero
      · rw [← h.signsDiffer_eq hZero]
        simpa [hZero] using hCorrect
    have hBetween := h.isBetween hSame
    refine ⟨r, ?_, ?_, hBetween⟩
    · rw [if_neg (by simpa using hCorrect)]
    · rw [floor_eq_of_isBetween h.split hBetween]
      linarith [h.split]

------------------------------------------------------------
-- Quotients and remainders
------------------------------------------------------------

/- What has no cut quotient cannot be divided. -/
theorem not_isDivisible
    (h : cutQuotient? a b = none) :
    ¬ IsDivisible a b := by
  rintro ⟨hDivisor, q, hFloor⟩
  rcases of_cutQuotient?_eq_none h with hZero | ⟨hLeast, hOne⟩
  · exact hDivisor hZero
  · have hFloor' :
        ⌊(a.toInt : ℚ) / b.toInt⌋ = 0x8000000000000000 := by
      apply floor_eq_of_isBetween (r := 0)
      · rw [hLeast, hOne]
        decide
      · rw [hOne]
        exact Or.inr ⟨by decide, by decide⟩
    have hHigh := q.toInt_lt
    omega

/- A division has both results, or it is refused at once. -/
theorem division_cases (a b : Int64) :
    (∃ d m,
      quotient a b = .ok d ∧
        remainder a b = .ok m ∧
          IsDivisible a b ∧
            d.toInt = ⌊(a.toInt : ℚ) / b.toInt⌋ ∧
              m.toInt =
                a.toInt - b.toInt * ⌊(a.toInt : ℚ) / b.toInt⌋ ∧
                IsBetween m.toInt b.toInt) ∨
      quotient a b = .error .refused ∧
        remainder a b = .error .refused ∧
          ¬ IsDivisible a b := by
  cases hQuotient : cutQuotient? a b with
  | none =>
      refine Or.inr ⟨?_, ?_, not_isDivisible hQuotient⟩
      · unfold quotient
        rw [hQuotient]
        rfl
      · unfold remainder cutRemainder?
        rw [hQuotient]
        rfl
  | some q =>
      rcases exists_cut hQuotient with ⟨r, hRemainder, hCut⟩
      rcases hCut.exists_quotient hQuotient hRemainder with
        ⟨d, hDown, hFloor⟩
      rcases hCut.exists_remainder hRemainder with
        ⟨m, hRest, hLeft, hBetween⟩
      exact
        Or.inl
          ⟨d, m, hDown, hRest, ⟨hCut.divisor, d, hFloor⟩, hFloor,
            hLeft, hBetween⟩

theorem quotient_eq_ok_iff :
    quotient a b = .ok d ↔
      d.toInt = ⌊(a.toInt : ℚ) / b.toInt⌋ ∧
        IsDivisible a b := by
  rcases division_cases a b with
    ⟨q, _, hDown, _, hDivisible, hFloor, _⟩ | ⟨hDown, _, hNot⟩
  · rw [hDown, Except.ok.injEq, ← Int64.toInt_inj, hFloor]
    simp only [hDivisible, and_true]
    exact eq_comm
  · rw [hDown]
    simp [hNot]

theorem remainder_eq_ok_iff :
    remainder a b = .ok r ↔
      r.toInt =
          a.toInt - b.toInt * ⌊(a.toInt : ℚ) / b.toInt⌋ ∧
        IsDivisible a b := by
  rcases division_cases a b with
    ⟨_, m, _, hRest, hDivisible, _, hLeft, _⟩ | ⟨_, hRest, hNot⟩
  · rw [hRest, Except.ok.injEq, ← Int64.toInt_inj, hLeft]
    simp only [hDivisible, and_true]
    exact eq_comm
  · rw [hRest]
    simp [hNot]

theorem isBetween_of_remainder
    (h : remainder a b = .ok r) :
    IsBetween r.toInt b.toInt := by
  rcases division_cases a b with
    ⟨_, m, _, hRest, _, _, _, hBetween⟩ | ⟨_, hRest, _⟩
  · rw [hRest] at h
    cases h
    exact hBetween
  · rw [hRest] at h
    cases h

/- No step of a division traps. -/
theorem not_trapped (a b : Int64) :
    quotient a b ≠ .error .trapped ∧
      remainder a b ≠ .error .trapped := by
  rcases division_cases a b with
    ⟨_, _, hDown, hRest, _⟩ | ⟨hDown, hRest, _⟩
  · rw [hDown, hRest]
    exact ⟨nofun, nofun⟩
  · rw [hDown, hRest]
    exact ⟨by decide, by decide⟩

------------------------------------------------------------
-- Results between integers
------------------------------------------------------------

variable {op : BinaryOp}
variable {value : Option Value}

theorem checked_eq_ok_iff
    {result : Option Int64} :
    checked a op b result = .ok value ↔
      ∃ n, value = some (.int n) ∧ result = some n := by
  cases result with
  | none => simp [checked]
  | some n => simp [checked, eq_comm]

/- What is computed exactly is an integer if it is in range. -/
theorem checked_ofInt?_eq_ok_iff
    {n : Int} :
    checked a op b (ofInt? n) = .ok value ↔
      ∃ m, value = some (.int m) ∧ m.toInt = n := by
  rw [checked_eq_ok_iff]
  simp only [ofInt?_eq_some_iff]

/- A division has the result of its steps. -/
theorem checked_toOption_eq_ok_iff
    {result : Except Fault Int64} :
    checked a op b result.toOption = .ok value ↔
      ∃ n, value = some (.int n) ∧ result = .ok n := by
  rw [checked_eq_ok_iff]
  cases result with
  | error e => simp [Except.toOption]
  | ok n => simp [Except.toOption]

theorem fold_div_eq_ok_iff :
    fold a .div b = .ok value ↔
      ∃ n, value = some (.int n) ∧ quotient a b = .ok n := by
  unfold fold
  dsimp only
  split
  · next hZero =>
      simp [quotient_eq_ok_iff, IsDivisible, hZero]
  · exact checked_toOption_eq_ok_iff

theorem fold_mod_eq_ok_iff :
    fold a .mod b = .ok value ↔
      ∃ n, value = some (.int n) ∧ remainder a b = .ok n := by
  unfold fold
  dsimp only
  split
  · next hZero =>
      simp [remainder_eq_ok_iff, IsDivisible, hZero]
  · exact checked_toOption_eq_ok_iff

/- The power, if the exponent is one of an integer. -/
theorem fold_pow_eq_ok_iff
    (hExponent : 0 ≤ b.toInt ∧ b.toInt ≤ 0xffffffff) :
    fold a .pow b = .ok value ↔
      ∃ n,
        value = some (.int n) ∧
          n.toInt = a.toInt ^ b.toInt.toNat := by
  have hSome : exponent? b = some b.toInt.toNat := by
    unfold exponent?
    rw [if_pos]
    omega
  unfold fold
  rw [hSome]
  dsimp only
  rw [power?_eq, checked_ofInt?_eq_ok_iff]

/- The results of arithmetic, where there are any. -/
theorem fold_eq_ok_iff
    (hOp : IsArithmetic op b) :
    fold a op b = .ok value ↔
      ∃ n,
        value = some (.int n) ∧
          n.toInt = exact a.toInt op b.toInt ∧
            IsDefined a op b := by
  cases op with
  | add =>
      simp only [fold, exact, IsDefined, and_true,
        checked_ofInt?_eq_ok_iff]
  | sub =>
      simp only [fold, exact, IsDefined, and_true,
        checked_ofInt?_eq_ok_iff]
  | mul =>
      simp only [fold, exact, IsDefined, and_true,
        checked_ofInt?_eq_ok_iff]
  | div =>
      simp only [fold_div_eq_ok_iff, quotient_eq_ok_iff, exact,
        IsDefined]
  | mod =>
      simp only [fold_mod_eq_ok_iff, remainder_eq_ok_iff, exact,
        IsDefined]
  | pow =>
      simp only [fold_pow_eq_ok_iff hOp, exact, IsDefined,
        and_true]
  | _ => cases hOp

/-
  Between integers, an arithmetic operator gives a result
  exactly if the mathematical one is an integer of sixty-four
  bits, and for a division if the quotient is; the result is
  the mathematical one. A quotient and a remainder belong
  together, and none of the steps towards them that are taken
  without a test is ever without a result.
-/
theorem fold?_exact (a b : Int64) :
    (∀ (op : BinaryOp) (value : Option Value),
      IsArithmetic op b →
        (BinaryOp.fold? (.int a) op (.int b) = .ok value ↔
          ∃ n,
            value = some (.int n) ∧
              n.toInt = exact a.toInt op b.toInt ∧
                IsDefined a op b)) ∧
      (∀ q r : Int64,
        BinaryOp.fold? (.int a) .div (.int b) =
            .ok (some (.int q)) →
          BinaryOp.fold? (.int a) .mod (.int b) =
              .ok (some (.int r)) →
            a.toInt = b.toInt * q.toInt + r.toInt ∧
              IsBetween r.toInt b.toInt) ∧
      quotient a b ≠ .error .trapped ∧
      remainder a b ≠ .error .trapped := by
  refine ⟨?_, ?_, not_trapped a b⟩
  · intro op value hOp
    have hFold :
        BinaryOp.fold? (.int a) op (.int b) = fold a op b := by
      cases op with
      | and => cases hOp
      | or => cases hOp
      | _ => rfl
    rw [hFold]
    exact fold_eq_ok_iff hOp
  · intro q r hDiv hMod
    rcases fold_div_eq_ok_iff.mp hDiv with ⟨_, hq, hQuotient⟩
    rcases fold_mod_eq_ok_iff.mp hMod with ⟨_, hr, hRemainder⟩
    cases hq
    cases hr
    refine ⟨?_, isBetween_of_remainder hRemainder⟩
    rw [(quotient_eq_ok_iff.mp hQuotient).1,
      (remainder_eq_ok_iff.mp hRemainder).1]
    ring

/-
  The least integer divided by three: cutting gives a quotient
  and a remainder on the wrong side, and both are corrected.
-/
theorem fold?_exact_least :
    (BinaryOp.fold? (.int Int64.minValue) .div (.int 3) =
        .ok (some (.int (-3074457345618258603))) ∧
      BinaryOp.fold? (.int Int64.minValue) .mod (.int 3) =
        .ok (some (.int 1))) ∧
      Int64.minValue.toInt =
        3 * (-3074457345618258603 : Int64).toInt +
          (1 : Int64).toInt ∧
      IsBetween (1 : Int64).toInt (3 : Int64).toInt ∧
      (∃ n : Int64,
        some (Value.int (-3074457345618258603)) =
            some (.int n) ∧
          n.toInt = exact Int64.minValue.toInt .div 3) := by
  have hDiv :
      BinaryOp.fold? (.int Int64.minValue) .div (.int 3) =
        .ok (some (.int (-3074457345618258603))) := rfl
  have hMod :
      BinaryOp.fold? (.int Int64.minValue) .mod (.int 3) =
        .ok (some (.int 1)) := rfl
  rcases fold?_exact Int64.minValue 3 with
    ⟨hResult, hTogether, _⟩
  rcases (hResult .div _ trivial).mp hDiv with ⟨n, hn, hExact, _⟩
  rcases hTogether _ _ hDiv hMod with ⟨hSplit, hBetween⟩
  exact ⟨⟨hDiv, hMod⟩, hSplit, hBetween, n, hn, hExact⟩

end Integer

end MapStyle
