import Mathlib
import MapStyle.Decimal.Shortest

/-
  The shortest decimal of a float reads back as this float and
  as no other one. It lies in the rounding interval of the
  float, and the intervals of two floats meet in no point: an
  end that they share belongs to the even one only.

  Key definitions include:
    * `Decimal.value`
    * `Binary.IsCanonical`
    * `Binary.Covers`

  Main statements:
    * `Binary.rounds_iff_covers`
    * `Binary.rounds_shortest`
    * `Binary.IsCanonical.eq_of_covers`
    * `Binary.IsCanonical.rounds_shortest_iff`
-/

namespace MapStyle

------------------------------------------------------------
-- Values
------------------------------------------------------------

/- The number that a decimal stands for. -/
def Decimal.value (d : Decimal) : ℚ :=
  d.digits * 10 ^ d.exponent

/- A power is a quotient of powers with natural exponents. -/
theorem zpow_eq_div_toNat
    {b : ℚ}
    (hBase : b ≠ 0)
    (k : ℤ) :
    b ^ k = b ^ k.toNat / b ^ (-k).toNat := by
  rw [← zpow_natCast, ← zpow_natCast, ← zpow_sub₀ hBase,
    Int.toNat_sub_toNat_neg]

namespace Binary

/- A quarter of the distance between a float and the next. -/
def quarter (x : Binary) : ℚ :=
  2 ^ (x.exponent - 2)

theorem quarter_pos (x : Binary) : 0 < x.quarter :=
  zpow_pos two_pos _

/- The lower end of the rounding interval. -/
def low (x : Binary) : ℚ :=
  x.lowQuarters * x.quarter

/- The upper end of the rounding interval. -/
def high (x : Binary) : ℚ :=
  x.highQuarters * x.quarter

/-
  The numbers of the rounding interval. Its ends belong to it
  when the mantissa is even.
-/
def Covers
    (x : Binary)
    (value : ℚ) : Prop :=
  if x.mantissa % 2 = 0 then
    x.low ≤ value ∧ value ≤ x.high
  else
    x.low < value ∧ value < x.high

/- The scales of a grid compare decimals with quarters. -/
theorem scales_eq
    (x : Binary)
    (exponent : ℤ) :
    ∃ factor : ℚ,
      0 < factor ∧
        ((x.scales exponent).1 : ℚ) = 10 ^ exponent * factor ∧
          ((x.scales exponent).2 : ℚ) = x.quarter * factor := by
  have hTen : (0 : ℚ) < 10 ^ (-exponent).toNat := by positivity
  have hTwo : (0 : ℚ) < 2 ^ (-(x.exponent - 2)).toNat := by
    positivity
  refine ⟨_, mul_pos hTen hTwo, ?_, ?_⟩
  · rw [zpow_eq_div_toNat (by norm_num) exponent, scales]
    simp only [Nat.pow_eq, Nat.cast_mul, Nat.cast_pow]
    field_simp
    norm_num
  · rw [quarter, zpow_eq_div_toNat (by norm_num) (x.exponent - 2),
      scales]
    simp only [Nat.pow_eq, Nat.cast_mul, Nat.cast_pow]
    field_simp
    norm_num

/-
  A decimal rounds to a float when its value lies in the
  rounding interval of the float.
-/
theorem rounds_iff_covers
    (x : Binary)
    (d : Decimal) :
    x.Rounds d ↔ x.Covers d.value := by
  rcases x.scales_eq d.exponent with ⟨s, hPos, hLeft, hRight⟩
  have hLeftOf :
      ((d.digits * (x.scales d.exponent).1 : ℕ) : ℚ) =
        d.value * s := by
    rw [Nat.cast_mul, hLeft, Decimal.value, mul_assoc]
  have hRightOf (n : ℕ) :
      ((n * (x.scales d.exponent).2 : ℕ) : ℚ) =
        n * x.quarter * s := by
    rw [Nat.cast_mul, hRight, mul_assoc]
  unfold Rounds Covers low high
  dsimp only
  split
  · rw [← Nat.cast_le (α := ℚ), ← Nat.cast_le (α := ℚ), hLeftOf,
      hRightOf, hRightOf, mul_le_mul_iff_left₀ hPos,
      mul_le_mul_iff_left₀ hPos]
  · rw [← Nat.cast_lt (α := ℚ), ← Nat.cast_lt (α := ℚ), hLeftOf,
      hRightOf, hRightOf, mul_lt_mul_iff_left₀ hPos,
      mul_lt_mul_iff_left₀ hPos]

------------------------------------------------------------
-- The shortest decimal
------------------------------------------------------------

/- What is found on a grid rounds to the float. -/
theorem rounds_of_onGrid?
    {x : Binary}
    {exponent : ℤ}
    {d : Decimal}
    (h : x.onGrid? exponent = some d) :
    x.Rounds d := by
  unfold onGrid? at h
  dsimp only at h
  split at h
  · next hBelow =>
      split at h
      · next hAbove =>
          split at h
          · cases h
            exact hBelow
          split at h
          · cases h
            exact hAbove
          split at h
          · cases h
            exact hBelow
          · cases h
            exact hAbove
      · cases h
        exact hBelow
  · split at h
    · next hAbove =>
        cases h
        exact hAbove
    · cases h

/- The float itself lies on the finest grid. -/
theorem scales_finest_dvd (x : Binary) :
    (x.scales (min x.exponent 0)).1 ∣
      4 * (x.scales (min x.exponent 0)).2 := by
  have hTen : (min x.exponent 0).toNat = 0 := by omega
  unfold scales
  dsimp only
  rw [hTen]
  rcases lt_or_ge x.exponent 2 with hSmall | hLarge
  · -- The divisor is a power of two, and the tens are even.
    have hFive : 10 = 2 * 5 := rfl
    have hTwo : (4 : ℕ) = 2 ^ 2 := rfl
    have hLeft :
        (-(x.exponent - 2)).toNat ≤
          2 + (-min x.exponent 0).toNat := by
      omega
    have hDvd := Nat.pow_dvd_pow 2 hLeft
    rw [Nat.pow_add, ← hTwo] at hDvd
    simp only [Nat.pow_eq, Nat.pow_zero, Nat.one_mul]
    refine hDvd.trans (Nat.mul_dvd_mul_left 4 ?_)
    refine Dvd.dvd.mul_left ?_ _
    rw [hFive, Nat.mul_pow]
    exact Dvd.intro _ rfl
  · have hNone : (-(x.exponent - 2)).toNat = 0 := by omega
    rw [hNone]
    exact one_dvd _

theorem lowQuarters_le (x : Binary) :
    x.lowQuarters ≤ 4 * x.mantissa := by
  unfold lowQuarters
  split <;> omega

theorem lowQuarters_lt
    {x : Binary}
    (h : x.mantissa ≠ 0) :
    x.lowQuarters < 4 * x.mantissa := by
  unfold lowQuarters
  split <;> omega

theorem le_highQuarters (x : Binary) :
    4 * x.mantissa < x.highQuarters := by
  unfold highQuarters
  omega

theorem scales_right_pos
    (x : Binary)
    (exponent : ℤ) :
    0 < (x.scales exponent).2 := by
  unfold scales
  exact Nat.mul_pos (Nat.pow_pos (by decide))
    (Nat.pow_pos (by decide))

/- The last grid of the search holds the float exactly. -/
theorem rounds_search_zero (x : Binary) :
    x.Rounds (search x (min x.exponent 0) 0) := by
  have hDvd := Dvd.dvd.mul_left x.scales_finest_dvd x.mantissa
  have hPos := x.scales_right_pos (min x.exponent 0)
  rw [search]
  unfold Rounds
  dsimp only
  generalize x.scales (min x.exponent 0) = scales at hDvd hPos
  rcases scales with ⟨left, right⟩
  dsimp only at hDvd hPos ⊢
  have hExact :
      4 * x.mantissa * right / left * left =
        4 * x.mantissa * right := by
    apply Nat.div_mul_cancel
    rwa [Nat.mul_comm 4, Nat.mul_assoc]
  rw [hExact]
  split
  · exact
      ⟨Nat.mul_le_mul_right _ x.lowQuarters_le,
        Nat.mul_le_mul_right _ x.le_highQuarters.le⟩
  · next hOdd =>
      have hSome : x.mantissa ≠ 0 := by omega
      exact
        ⟨Nat.mul_lt_mul_of_pos_right (lowQuarters_lt hSome) hPos,
          Nat.mul_lt_mul_of_pos_right x.le_highQuarters hPos⟩

/- The shortest decimal of a float rounds to it. -/
theorem rounds_shortest (x : Binary) :
    x.Rounds x.shortest := by
  unfold shortest
  dsimp only
  generalize Int.toNat _ = steps
  induction steps with
  | zero => exact x.rounds_search_zero
  | succ steps ih =>
      rw [search]
      split
      · next d hFound => exact rounds_of_onGrid? hFound
      · exact ih

------------------------------------------------------------
-- Intervals of different floats
------------------------------------------------------------

/-
  What holds of the magnitude of a float in its only form: the
  mantissa has all its bits unless the exponent is the least
  one, and the gap below is narrow at powers of two.
-/
structure IsCanonical (x : Binary) : Prop where
  bound : x.mantissa < 2 ^ 53
  least : -1074 ≤ x.exponent
  full : -1074 < x.exponent → 2 ^ 52 ≤ x.mantissa
  narrow :
    x.narrowBelow = true ↔
      x.mantissa = 2 ^ 52 ∧ -1074 < x.exponent

variable {x y : Binary}

theorem IsCanonical.ext
    (hX : x.IsCanonical)
    (hY : y.IsCanonical)
    (hMantissa : x.mantissa = y.mantissa)
    (hExponent : x.exponent = y.exponent) :
    x = y := by
  have hNarrow : x.narrowBelow = y.narrowBelow := by
    rw [Bool.eq_iff_iff, hX.narrow, hY.narrow, hMantissa,
      hExponent]
  cases x
  cases y
  cases hMantissa
  cases hExponent
  cases hNarrow
  rfl

/- There is one form of zero. -/
theorem IsCanonical.eq_of_mantissa_eq_zero
    (hX : x.IsCanonical)
    (hY : y.IsCanonical)
    (hXZero : x.mantissa = 0)
    (hYZero : y.mantissa = 0) :
    x = y := by
  refine hX.ext hY (hXZero.trans hYZero.symm) ?_
  have hXFull := hX.full
  have hYFull := hY.full
  have hXLeast := hX.least
  have hYLeast := hY.least
  omega

/-
  A float stands before another one: it has a smaller exponent
  or, with the same one, a smaller mantissa.
-/
def IsBefore (x y : Binary) : Prop :=
  x.exponent < y.exponent ∨
    x.exponent = y.exponent ∧ x.mantissa < y.mantissa

/-
  Where the exponent grows, the quarters double at least, and
  the lower float has too few of them to reach the upper one.
-/
theorem IsCanonical.highQuarters_le
    (hX : x.IsCanonical)
    (hY : y.IsCanonical)
    (h : x.exponent < y.exponent) :
    x.highQuarters ≤ 2 * y.lowQuarters ∧
      (x.highQuarters = 2 * y.lowQuarters →
        x.mantissa % 2 = 1) := by
  have hAbove : -1074 < y.exponent := by
    have hLeast := hX.least
    omega
  have hBound := hX.bound
  have hFull := hY.full hAbove
  have hLow : 2 ^ 54 - 1 ≤ y.lowQuarters := by
    unfold lowQuarters
    split
    · omega
    · next hWide =>
        have hNot : y.mantissa ≠ 2 ^ 52 := fun hEq =>
          hWide (hY.narrow.mpr ⟨hEq, hAbove⟩)
        omega
  unfold highQuarters
  constructor
  · omega
  · intro hEnds
    omega

theorem IsCanonical.high_le_low_of_exponent
    (hX : x.IsCanonical)
    (hY : y.IsCanonical)
    (h : x.exponent < y.exponent) :
    x.high ≤ y.low ∧
      (x.high = y.low → x.mantissa % 2 = 1) := by
  rcases hX.highQuarters_le hY h with ⟨hHigh, hEnds⟩
  have hDouble : 2 * x.quarter ≤ y.quarter := by
    have hStep : x.exponent - 2 + 1 ≤ y.exponent - 2 := by
      omega
    have hPow := zpow_le_zpow_right₀ (one_le_two (α := ℚ)) hStep
    rwa [zpow_add_one₀ two_ne_zero, mul_comm] at hPow
  have hCast : (x.highQuarters : ℚ) ≤ 2 * y.lowQuarters := by
    exact_mod_cast hHigh
  have hWhole :=
    mul_le_mul_of_nonneg_right hCast x.quarter_pos.le
  have hScaled :
      (2 * y.lowQuarters : ℚ) * x.quarter ≤
        y.lowQuarters * y.quarter := by
    calc
      (2 * y.lowQuarters : ℚ) * x.quarter
        = y.lowQuarters * (2 * x.quarter) := by ring
      _ ≤ y.lowQuarters * y.quarter :=
        mul_le_mul_of_nonneg_left hDouble (Nat.cast_nonneg _)
  refine ⟨hWhole.trans hScaled, fun hTouch => hEnds ?_⟩
  have hSame :
      (x.highQuarters : ℚ) * x.quarter =
        2 * y.lowQuarters * x.quarter :=
    le_antisymm hWhole (hScaled.trans hTouch.ge)
  exact_mod_cast mul_right_cancel₀ x.quarter_pos.ne' hSame

theorem high_le_low_of_mantissa
    (hExponent : x.exponent = y.exponent)
    (hMantissa : x.mantissa < y.mantissa) :
    x.high ≤ y.low ∧
      (x.high = y.low →
        x.mantissa % 2 = 1 ∨ y.mantissa % 2 = 1) := by
  have hQuarter : y.quarter = x.quarter := by
    rw [quarter, quarter, hExponent]
  have hLow : 4 * y.mantissa - 2 ≤ y.lowQuarters := by
    unfold lowQuarters
    split <;> omega
  have hHigh : x.highQuarters ≤ y.lowQuarters := by
    unfold highQuarters
    omega
  unfold high low
  rw [hQuarter]
  constructor
  · exact
      mul_le_mul_of_nonneg_right (by exact_mod_cast hHigh)
        x.quarter_pos.le
  · intro hTouch
    have hEnds : x.highQuarters = y.lowQuarters := by
      exact_mod_cast mul_right_cancel₀ x.quarter_pos.ne' hTouch
    unfold highQuarters at hEnds
    omega

/-
  The interval of a float ends where that of the next one
  begins at the latest. Where they touch, one of the two
  mantissas is odd.
-/
theorem IsCanonical.high_le_low
    (hX : x.IsCanonical)
    (hY : y.IsCanonical)
    (h : x.IsBefore y) :
    x.high ≤ y.low ∧
      (x.high = y.low →
        x.mantissa % 2 = 1 ∨ y.mantissa % 2 = 1) := by
  rcases h with hExponent | ⟨hExponent, hMantissa⟩
  · rcases hX.high_le_low_of_exponent hY hExponent with
      ⟨hEnds, hTouch⟩
    exact ⟨hEnds, fun hSame => .inl (hTouch hSame)⟩
  · exact high_le_low_of_mantissa hExponent hMantissa

theorem Covers.le
    {value : ℚ}
    (h : x.Covers value) :
    x.low ≤ value ∧ value ≤ x.high := by
  unfold Covers at h
  split at h
  · exact h
  · exact ⟨h.1.le, h.2.le⟩

theorem Covers.lt
    {value : ℚ}
    (h : x.Covers value)
    (hOdd : x.mantissa % 2 = 1) :
    x.low < value ∧ value < x.high := by
  unfold Covers at h
  rwa [if_neg (by omega)] at h

/- No number rounds to a float and to one before it. -/
theorem IsCanonical.not_covers
    (hX : x.IsCanonical)
    (hY : y.IsCanonical)
    (h : x.IsBefore y)
    {value : ℚ}
    (hFirst : x.Covers value)
    (hSecond : y.Covers value) : False := by
  rcases hX.high_le_low hY h with ⟨hEnds, hTouch⟩
  have hHigh := hFirst.le.2
  have hLow := hSecond.le.1
  have hSame : x.high = y.low :=
    le_antisymm hEnds (hLow.trans hHigh)
  rcases hTouch hSame with hOdd | hOdd
  · exact absurd (hFirst.lt hOdd).2 (not_lt.mpr (hSame ▸ hLow))
  · exact absurd (hSecond.lt hOdd).1 (not_lt.mpr (hSame ▸ hHigh))

/- A number rounds to one float only. -/
theorem IsCanonical.eq_of_covers
    (hX : x.IsCanonical)
    (hY : y.IsCanonical)
    {value : ℚ}
    (hFirst : x.Covers value)
    (hSecond : y.Covers value) :
    x = y := by
  rcases lt_trichotomy x.exponent y.exponent with
    hLess | hExponent | hGreater
  · exact (hX.not_covers hY (.inl hLess) hFirst hSecond).elim
  · rcases lt_trichotomy x.mantissa y.mantissa with
      hLess | hMantissa | hGreater
    · exact
        (hX.not_covers hY (.inr ⟨hExponent, hLess⟩) hFirst
          hSecond).elim
    · exact hX.ext hY hMantissa hExponent
    · exact
        (hY.not_covers hX (.inr ⟨hExponent.symm, hGreater⟩)
          hSecond hFirst).elim
  · exact (hY.not_covers hX (.inl hGreater) hSecond hFirst).elim

/- The shortest decimal of a float reads back as this float. -/
theorem IsCanonical.rounds_shortest_iff
    (hX : x.IsCanonical)
    (hY : y.IsCanonical) :
    y.Rounds x.shortest ↔ y = x := by
  constructor
  · intro h
    exact
      hY.eq_of_covers hX ((rounds_iff_covers y _).mp h)
        ((rounds_iff_covers x _).mp x.rounds_shortest)
  · rintro rfl
    exact y.rounds_shortest

/- Floats with shortest decimals of one value are the same. -/
theorem IsCanonical.eq_of_value_shortest_eq
    (hX : x.IsCanonical)
    (hY : y.IsCanonical)
    (h : x.shortest.value = y.shortest.value) :
    x = y := by
  have hCovers := (rounds_iff_covers x _).mp x.rounds_shortest
  rw [h] at hCovers
  exact
    hX.eq_of_covers hY hCovers
      ((rounds_iff_covers y _).mp y.rounds_shortest)

/- Only zero has a shortest decimal without value. -/
theorem mantissa_eq_zero_of_value_shortest
    (h : x.shortest.value = 0) :
    x.mantissa = 0 := by
  have hCovers := (rounds_iff_covers x _).mp x.rounds_shortest
  rw [h] at hCovers
  have hLow := hCovers.le.1
  by_contra hSome
  have hQuarters : 0 < x.lowQuarters := by
    unfold lowQuarters
    split <;> omega
  have hPos : 0 < x.low :=
    mul_pos (by exact_mod_cast hQuarters) x.quarter_pos
  exact absurd hLow (not_le.mpr hPos)

end Binary

end MapStyle
