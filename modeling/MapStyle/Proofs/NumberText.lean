import MapStyle.Number
import MapStyle.Proofs.RoundingInterval
import MapStyle.Proofs.Scanning

/-
  The text of a number says which number it is. The text of a
  float has the value of its shortest decimal, from which the
  float is read back up to its sign, and the sign is the first
  character.

  Key definitions include:
    * `Decimal.textValue`
    * `Decimal.magnitudeText`
    * `Number.isNumberChar`

  Main statements:
    * `Binary.eq_of_ofFloat_eq`
    * `Decimal.textValue_layOut`
    * `Decimal.floatText_injective`
    * `Number.text_injective`
-/

namespace MapStyle

------------------------------------------------------------
-- The bits of a float
------------------------------------------------------------

namespace Binary

theorem toNat_biased (bits : UInt64) :
    ((bits >>> 52) &&& 0x7FF).toNat =
      bits.toNat / 2 ^ 52 % 2 ^ 11 := by
  have hMask : (0x7FF : UInt64).toNat = 2 ^ 11 - 1 := rfl
  have hShift : (52 : UInt64).toNat % 64 = 52 := rfl
  rw [UInt64.toNat_and, UInt64.toNat_shiftRight, hMask, hShift,
    Nat.and_two_pow_sub_one_eq_mod, Nat.shiftRight_eq_div_pow]

theorem toNat_fraction (bits : UInt64) :
    (bits &&& 0xFFFFFFFFFFFFF).toNat = bits.toNat % 2 ^ 52 := by
  have hMask : (0xFFFFFFFFFFFFF : UInt64).toNat = 2 ^ 52 - 1 :=
    rfl
  rw [UInt64.toNat_and, hMask, Nat.and_two_pow_sub_one_eq_mod]

theorem isSignBitSet_iff (x : Float) :
    isSignBitSet x = true ↔ 2 ^ 63 ≤ x.toBits.toNat := by
  have hShift : (63 : UInt64).toNat % 64 = 63 := rfl
  have hZero : (0 : UInt64).toNat = 0 := rfl
  unfold isSignBitSet
  rw [bne_iff_ne, ne_eq, ← UInt64.toNat_inj,
    UInt64.toNat_shiftRight, hShift, hZero,
    Nat.shiftRight_eq_div_pow]
  omega

/- The exponent bits of a float. -/
def biased (x : Float) : Nat :=
  x.toBits.toNat / 2 ^ 52 % 2 ^ 11

/- The mantissa bits of a float. -/
def fraction (x : Float) : Nat :=
  x.toBits.toNat % 2 ^ 52

/-
  The number of a float, read off its bits: subnormal
  without the leading one, otherwise with it.
-/
theorem ofFloat_eq (x : Float) :
    ofFloat x =
      if biased x = 0 then
        ⟨fraction x, -1074, false⟩
      else
        ⟨2 ^ 52 + fraction x, (biased x : ℤ) - 1075,
          fraction x = 0 && biased x > 1⟩ := by
  unfold ofFloat
  dsimp only
  rw [toNat_biased, toNat_fraction]
  rfl

theorem fraction_lt (x : Float) : fraction x < 2 ^ 52 :=
  Nat.mod_lt _ (by decide)

/- A float is decoded in its only form. -/
theorem isCanonical_ofFloat (x : Float) :
    (ofFloat x).IsCanonical := by
  have hFraction := fraction_lt x
  rw [ofFloat_eq]
  split
  · constructor
    · dsimp only
      omega
    · exact le_rfl
    · intro h
      exact absurd h (lt_irrefl _)
    · constructor
      · intro h
        cases h
      · rintro ⟨_, h⟩
        exact absurd h (lt_irrefl _)
  · constructor
    · dsimp only
      omega
    · dsimp only
      omega
    · intro _
      exact Nat.le_add_right _ _
    · dsimp only
      rw [Bool.and_eq_true, decide_eq_true_iff,
        decide_eq_true_iff]
      omega

/- The sign and the magnitude of a float determine it. -/
theorem eq_of_ofFloat_eq
    {x y : Float}
    (hSign : isSignBitSet x = isSignBitSet y)
    (h : ofFloat x = ofFloat y) :
    x = y := by
  have hX := x.toBits.toNat_lt
  have hY := y.toBits.toNat_lt
  have hXFraction := fraction_lt x
  have hYFraction := fraction_lt y
  rw [Bool.eq_iff_iff, isSignBitSet_iff, isSignBitSet_iff] at hSign
  have hBits :
      biased x = biased y ∧ fraction x = fraction y := by
    rw [ofFloat_eq, ofFloat_eq] at h
    split at h <;> split at h <;>
      simp only [Binary.mk.injEq] at h <;>
      omega
  rw [← Float.toBits_inj, ← UInt64.toNat_inj]
  unfold biased fraction at hBits
  omega

theorem toBits_zero : (0 : Float).toBits = 0 := by
  decide +kernel

theorem toBits_neg_zero :
    (-0 : Float).toBits = 0x8000000000000000 := by
  decide +kernel

/- Zero is the only float without a magnitude. -/
theorem beq_zero_iff (x : Float) :
    (x == 0.0) = true ↔ (ofFloat x).mantissa = 0 := by
  have hZero : (0.0 : Float) = 0 := by
    rw [← Float.toBits_inj]
    decide +kernel
  have hBits := x.toBits.toNat_lt
  have hMantissa :
      (ofFloat x).mantissa = 0 ↔
        x.toBits = 0 ∨ x.toBits = 0x8000000000000000 := by
    rw [← UInt64.toNat_inj, ← UInt64.toNat_inj]
    change _ ↔ x.toBits.toNat = 0 ∨ x.toBits.toNat = 2 ^ 63
    rw [ofFloat_eq]
    unfold biased fraction
    split <;> dsimp only <;> omega
  rw [hMantissa, ← toBits_zero, ← toBits_neg_zero,
    Float.toBits_inj, Float.toBits_inj, hZero,
    Float.beq_iff_ne_nan_and_eq]
  constructor
  · rintro ⟨_, _, rfl | ⟨rfl, _⟩ | ⟨rfl, _⟩⟩
    · exact .inl rfl
    · exact .inl rfl
    · exact .inr rfl
  · have hNumber : (0 : Float) ≠ Float.nan := by
      rw [ne_eq, ← Float.toBits_inj]
      decide +kernel
    have hNegative : (-0 : Float) ≠ Float.nan := by
      rw [ne_eq, ← Float.toBits_inj]
      decide +kernel
    rintro (rfl | rfl)
    · exact ⟨hNumber, hNumber, .inl rfl⟩
    · exact ⟨hNegative, hNumber, .inr (.inr ⟨rfl, rfl⟩)⟩

end Binary

------------------------------------------------------------
-- Digits
------------------------------------------------------------

namespace Scanner

/-
  Digits in front count by the place that those behind leave
  them.
-/
theorem decimalValue_append (front back : List Char) :
    decimalValue (front ++ back) =
      decimalValue front * 10 ^ back.length
        + decimalValue back := by
  induction back using List.reverseRecOn with
  | nil => simp [decimalValue]
  | append_singleton back c ih =>
      unfold decimalValue at ih ⊢
      rw [← List.append_assoc, List.foldl_concat, ih,
        List.foldl_concat, List.length_append, List.length_singleton,
        pow_succ]
      ring

theorem decimalValue_zeros (count : Nat) :
    decimalValue (List.replicate count '0') = 0 := by
  induction count with
  | zero => rfl
  | succ count ih =>
      rw [List.replicate_succ', decimalValue_append, ih]
      rfl

end Scanner

------------------------------------------------------------
-- Reading decimals
------------------------------------------------------------

namespace Decimal

/- The exponent that a text stands for. -/
def exponentValue : List Char → ℤ
  | '-' :: digits => -(Scanner.decimalValue digits : ℤ)
  | '+' :: digits => Scanner.decimalValue digits
  | digits => Scanner.decimalValue digits

/- The exponent behind its mark, zero without a mark. -/
def markedExponent : List Char → ℤ
  | 'e' :: text => exponentValue text
  | _ => 0

/- The digits behind a point, and what follows them. -/
def pointed : List Char → List Char × List Char
  | '.' :: text =>
      (text.takeWhile Char.isDigit, text.dropWhile Char.isDigit)
  | text => ([], text)

/-
  The number that a text stands for: digits with a point and
  an exponent, both of which may be missing.
-/
def textValue (text : List Char) : ℚ :=
  let whole := text.takeWhile Char.isDigit
  let (fraction, rest) := pointed (text.dropWhile Char.isDigit)
  Scanner.decimalValue (whole ++ fraction)
    * 10 ^ (markedExponent rest - fraction.length)

/- The point in a text divides by a power of ten. -/
theorem textValue_pointed
    {whole fraction rest : List Char}
    (hWhole : ∀ c ∈ whole, c.isDigit = true)
    (hFraction : ∀ c ∈ fraction, c.isDigit = true)
    (hRest : Scanner.BeginsOutside Char.isDigit rest) :
    textValue (whole ++ '.' :: (fraction ++ rest)) =
      Scanner.decimalValue (whole ++ fraction)
        * 10 ^ (markedExponent rest - fraction.length) := by
  have hPoint :
      Scanner.BeginsOutside Char.isDigit
        ('.' :: (fraction ++ rest)) :=
    Scanner.beginsOutside_cons.mpr rfl
  unfold textValue
  dsimp only
  rw [Scanner.takeWhile_append hWhole hPoint,
    Scanner.dropWhile_append hWhole hPoint, pointed,
    Scanner.takeWhile_append hFraction hRest,
    Scanner.dropWhile_append hFraction hRest]

theorem textValue_fraction
    {whole fraction : List Char}
    (hWhole : ∀ c ∈ whole, c.isDigit = true)
    (hFraction : ∀ c ∈ fraction, c.isDigit = true) :
    textValue (whole ++ '.' :: fraction) =
      Scanner.decimalValue (whole ++ fraction)
        * 10 ^ (-(fraction.length : ℤ)) := by
  have hText :=
    textValue_pointed hWhole hFraction Scanner.beginsOutside_nil
  have hNone : markedExponent [] = 0 := rfl
  rwa [List.append_nil, hNone, zero_sub] at hText

theorem textValue_unpointed
    {whole text : List Char}
    (hWhole : ∀ c ∈ whole, c.isDigit = true) :
    textValue (whole ++ 'e' :: text) =
      Scanner.decimalValue whole * 10 ^ exponentValue text := by
  have hMark : Scanner.BeginsOutside Char.isDigit ('e' :: text) :=
    Scanner.beginsOutside_cons.mpr rfl
  unfold textValue
  dsimp only
  rw [Scanner.takeWhile_append hWhole hMark,
    Scanner.dropWhile_append hWhole hMark]
  simp [pointed, markedExponent]

------------------------------------------------------------
-- The text of a decimal
------------------------------------------------------------

variable {digits : List Char}

theorem isDigit_replicate
    (count : Nat) :
    ∀ c ∈ List.replicate count '0', c.isDigit = true := by
  intro c hc
  rw [List.eq_of_mem_replicate hc]
  rfl

theorem isEmpty_drop_iff
    (count : Nat)
    (chars : List Char) :
    (chars.drop count).isEmpty = true ↔ chars.length ≤ count := by
  rw [List.isEmpty_iff, List.drop_eq_nil_iff]

/- Digits behind zeros behind the point. -/
theorem textValue_below_point
    (hDigits : ∀ c ∈ digits, c.isDigit = true)
    (zeros : Nat) :
    textValue
        ('0' :: '.' :: (List.replicate zeros '0' ++ digits)) =
      Scanner.decimalValue digits
        * 10 ^ (-(zeros : ℤ) - digits.length) := by
  have hFraction :
      ∀ c ∈ List.replicate zeros '0' ++ digits,
        c.isDigit = true := by
    rw [List.forall_mem_append]
    exact ⟨isDigit_replicate zeros, hDigits⟩
  refine
    (textValue_fraction (isDigit_replicate 1) hFraction).trans ?_
  rw [← List.append_assoc, List.replicate_append_replicate,
    Scanner.decimalValue_append, Scanner.decimalValue_zeros,
    Nat.zero_mul, Nat.zero_add, List.length_append,
    List.length_replicate]
  congr 2
  push_cast
  ring

/- Digits and zeros that the point follows. -/
theorem textValue_above_point
    (hDigits : ∀ c ∈ digits, c.isDigit = true)
    (zeros : Nat) :
    textValue
        (digits ++ List.replicate zeros '0' ++ ['.', '0']) =
      Scanner.decimalValue digits * 10 ^ (zeros : ℤ) := by
  have hWhole :
      ∀ c ∈ digits ++ List.replicate zeros '0',
        c.isDigit = true := by
    rw [List.forall_mem_append]
    exact ⟨hDigits, isDigit_replicate zeros⟩
  refine
    (textValue_fraction hWhole (isDigit_replicate 1)).trans ?_
  rw [List.append_assoc, List.replicate_append_replicate,
    Scanner.decimalValue_append, Scanner.decimalValue_zeros,
    Nat.add_zero, Nat.cast_mul, mul_assoc, Nat.cast_pow,
    ← zpow_natCast, Nat.cast_ofNat, ← zpow_add₀ (by norm_num),
    List.length_replicate, List.length_replicate]
  congr 2
  push_cast
  ring

/- Digits with the point among them. -/
theorem textValue_around_point
    (hDigits : ∀ c ∈ digits, c.isDigit = true)
    (whole : Nat) :
    textValue (digits.take whole ++ '.' :: digits.drop whole) =
      Scanner.decimalValue digits
        * 10 ^ (-((digits.length - whole : Nat) : ℤ)) := by
  have hWhole : ∀ c ∈ digits.take whole, c.isDigit = true :=
    fun c hc => hDigits c (List.mem_of_mem_take hc)
  have hFraction : ∀ c ∈ digits.drop whole, c.isDigit = true :=
    fun c hc => hDigits c (List.mem_of_mem_drop hc)
  rw [textValue_fraction hWhole hFraction, List.take_append_drop,
    List.length_drop]

/- A positional text has the value of its digits. -/
theorem textValue_positional
    (hDigits : ∀ c ∈ digits, c.isDigit = true)
    (leading : ℤ) :
    textValue (positional digits leading) =
      Scanner.decimalValue digits
        * 10 ^ (leading + 1 - digits.length) := by
  unfold positional
  split
  · rw [textValue_below_point hDigits]
    congr 2
    omega
  dsimp only
  split
  · next hNone =>
      have hShort := (isEmpty_drop_iff _ _).mp hNone
      rw [List.take_of_length_le hShort,
        textValue_above_point hDigits]
      congr 2
      omega
  · next hSome =>
      have hLong : leading.toNat + 1 < digits.length := by
        rw [isEmpty_drop_iff] at hSome
        omega
      rw [Nat.sub_eq_zero_of_le hLong.le, List.replicate_zero,
        List.append_nil, textValue_around_point hDigits]
      congr 2
      omega

/- The exponent of a scientific text is read back. -/
theorem exponentValue_signed (leading : ℤ) :
    exponentValue
        ((if leading < 0 then [] else ['+'])
          ++ integerText leading) = leading := by
  unfold integerText
  split
  · rw [List.nil_append, exponentValue,
      Scanner.decimalValue_naturalText]
    omega
  · rw [List.singleton_append, exponentValue,
      Scanner.decimalValue_naturalText]
    omega

/- A scientific text has the value of its digits. -/
theorem textValue_scientific
    (hDigits : ∀ c ∈ digits, c.isDigit = true)
    (hSome : digits ≠ [])
    (leading : ℤ) :
    textValue (scientific documentLayout digits leading) =
      Scanner.decimalValue digits
        * 10 ^ (leading + 1 - digits.length) := by
  have hWhole : ∀ c ∈ digits.take 1, c.isDigit = true :=
    fun c hc => hDigits c (List.mem_of_mem_take hc)
  have hLength : 0 < digits.length :=
    List.length_pos_of_ne_nil hSome
  have hExponent := exponentValue_signed leading
  unfold scientific documentLayout
  dsimp only
  rw [List.append_assoc, List.append_assoc, List.cons_append]
  split
  · next hNone =>
      have hShort := (isEmpty_drop_iff _ _).mp hNone
      rw [List.nil_append]
      refine (textValue_unpointed hWhole).trans ?_
      rw [hExponent, List.take_of_length_le hShort]
      congr 2
      omega
  · next hMore =>
      have hFraction : ∀ c ∈ digits.drop 1, c.isDigit = true :=
        fun c hc => hDigits c (List.mem_of_mem_drop hc)
      rw [List.cons_append]
      refine
        (textValue_pointed hWhole hFraction
          (Scanner.beginsOutside_cons.mpr rfl)).trans ?_
      rw [List.take_append_drop]
      congr 2
      rw [List.length_drop, markedExponent, hExponent]
      omega

/- The text of a decimal has its value. -/
theorem textValue_layOut (d : Decimal) :
    textValue (layOut documentLayout d) = d.value := by
  have hDigits : ∀ c ∈ naturalText d.digits, c.isDigit = true :=
    fun _ => Scanner.isDigit_of_mem_naturalText
  have hSome := Scanner.naturalText_ne_nil d.digits
  unfold layOut Decimal.value
  dsimp only
  split
  · rw [textValue_positional hDigits,
      Scanner.decimalValue_naturalText]
    congr 2
    omega
  · rw [textValue_scientific hDigits hSome,
      Scanner.decimalValue_naturalText]
    congr 2
    omega

------------------------------------------------------------
-- Characters of decimals
------------------------------------------------------------

/- The text begins with a digit. -/
def BeginsWithDigit (text : List Char) : Prop :=
  ∃ c rest, text = c :: rest ∧ c.isDigit = true

theorem BeginsWithDigit.append
    {text : List Char}
    (h : BeginsWithDigit text)
    (more : List Char) :
    BeginsWithDigit (text ++ more) := by
  rcases h with ⟨c, rest, rfl, hDigit⟩
  exact ⟨c, rest ++ more, rfl, hDigit⟩

theorem beginsWithDigit_of_ne_nil
    (hDigits : ∀ c ∈ digits, c.isDigit = true)
    (hSome : digits ≠ []) :
    BeginsWithDigit digits := by
  cases digits with
  | nil => exact absurd rfl hSome
  | cons c rest => exact ⟨c, rest, rfl, hDigits c (by simp)⟩

theorem beginsWithDigit_take
    (hDigits : ∀ c ∈ digits, c.isDigit = true)
    (hSome : digits ≠ [])
    (count : Nat) :
    BeginsWithDigit (digits.take (count + 1)) := by
  cases digits with
  | nil => exact absurd rfl hSome
  | cons c rest => exact ⟨c, _, rfl, hDigits c (by simp)⟩

/- However a number is laid out, a digit comes first. -/
theorem beginsWithDigit_layOut (d : Decimal) :
    BeginsWithDigit (layOut documentLayout d) := by
  have hDigits : ∀ c ∈ naturalText d.digits, c.isDigit = true :=
    fun _ => Scanner.isDigit_of_mem_naturalText
  have hSome := Scanner.naturalText_ne_nil d.digits
  unfold layOut positional scientific
  dsimp only
  split
  · split
    · exact ⟨'0', _, rfl, rfl⟩
    · exact
        ((beginsWithDigit_take hDigits hSome _).append _).append _
  · exact
      (((beginsWithDigit_take hDigits hSome 0).append _).append
        _).append _

/- A point or an exponent stands in the text of a decimal. -/
theorem mark_mem_layOut (d : Decimal) :
    '.' ∈ layOut documentLayout d ∨
      'e' ∈ layOut documentLayout d := by
  unfold layOut positional scientific
  dsimp only
  split
  · left
    split <;> simp
  · right
    simp

/- Whether a character can stand in the text of a number. -/
def isNumberChar (c : Char) : Bool :=
  c.isDigit || c = '-' || c = '+' || c = '.' || c = 'e'

theorem isNumberChar_of_isDigit
    {c : Char}
    (h : c.isDigit = true) :
    isNumberChar c = true := by
  simp [isNumberChar, h]

theorem isNumberChar_integerText (n : ℤ) :
    ∀ c ∈ integerText n, isNumberChar c = true := by
  have hDigits :
      ∀ c ∈ naturalText n.natAbs, isNumberChar c = true :=
    fun _ hc =>
      isNumberChar_of_isDigit (Scanner.isDigit_of_mem_naturalText hc)
  unfold integerText
  split
  · exact List.forall_mem_cons.mpr ⟨rfl, hDigits⟩
  · exact hDigits

/- And all of its characters belong to numbers. -/
theorem isNumberChar_layOut (d : Decimal) :
    ∀ c ∈ layOut documentLayout d, isNumberChar c = true := by
  have hDigits :
      ∀ c ∈ naturalText d.digits, isNumberChar c = true :=
    fun _ hc =>
      isNumberChar_of_isDigit (Scanner.isDigit_of_mem_naturalText hc)
  have hTake (count : Nat) :
      ∀ c ∈ (naturalText d.digits).take count,
        isNumberChar c = true :=
    fun c hc => hDigits c (List.mem_of_mem_take hc)
  have hDrop (count : Nat) :
      ∀ c ∈ (naturalText d.digits).drop count,
        isNumberChar c = true :=
    fun c hc => hDigits c (List.mem_of_mem_drop hc)
  have hZeros (count : Nat) :
      ∀ c ∈ List.replicate count '0', isNumberChar c = true :=
    fun c hc =>
      isNumberChar_of_isDigit (isDigit_replicate count c hc)
  unfold layOut positional scientific documentLayout
  dsimp only
  split
  · split
    · simp only [List.forall_mem_cons, List.forall_mem_append]
      exact ⟨rfl, rfl, hZeros _, hDigits⟩
    · simp only [List.forall_mem_cons, List.forall_mem_append]
      refine ⟨⟨hTake _, hZeros _⟩, rfl, ?_⟩
      split
      · simp only [List.forall_mem_singleton]
        rfl
      · exact hDrop _
  · simp only [List.forall_mem_cons, List.forall_mem_append]
    refine
      ⟨⟨⟨hTake _, ?_⟩, rfl, ?_⟩, isNumberChar_integerText _⟩
    · split
      · simp
      · exact List.forall_mem_cons.mpr ⟨rfl, hDrop _⟩
    · split
      · simp
      · simp only [List.forall_mem_singleton]
        rfl

------------------------------------------------------------
-- Signs
------------------------------------------------------------

/- A text behind its sign. -/
def signed
    (negative : Bool)
    (text : List Char) : List Char :=
  if negative then '-' :: text else text

/- Digits show where the sign ends. -/
theorem signed_inj
    {negative negative' : Bool}
    {text text' : List Char}
    (hText : BeginsWithDigit text)
    (hText' : BeginsWithDigit text')
    (h : signed negative text = signed negative' text') :
    negative = negative' ∧ text = text' := by
  have hNot {front back : List Char}
      (hBack : BeginsWithDigit back) :
      '-' :: front ≠ back := by
    rcases hBack with ⟨c, rest, rfl, hDigit⟩
    intro hSame
    cases hSame
    cases hDigit
  cases negative <;> cases negative'
  · exact ⟨rfl, h⟩
  · exact absurd h.symm (hNot hText)
  · exact absurd h (hNot hText')
  · exact ⟨rfl, (List.cons.inj h).2⟩

theorem integerText_eq (n : ℤ) :
    integerText n = signed (n < 0) (naturalText n.natAbs) := by
  unfold integerText signed
  simp only [decide_eq_true_iff]

theorem beginsWithDigit_naturalText (n : Nat) :
    BeginsWithDigit (naturalText n) :=
  beginsWithDigit_of_ne_nil
    (fun _ => Scanner.isDigit_of_mem_naturalText)
    (Scanner.naturalText_ne_nil n)

/- Different integers have different texts. -/
theorem integerText_injective
    {n m : ℤ}
    (h : integerText n = integerText m) :
    n = m := by
  rw [integerText_eq, integerText_eq] at h
  rcases signed_inj (beginsWithDigit_naturalText _)
      (beginsWithDigit_naturalText _) h with
    ⟨hSign, hText⟩
  have hValue := congrArg Scanner.decimalValue hText
  rw [Scanner.decimalValue_naturalText,
    Scanner.decimalValue_naturalText] at hValue
  rw [decide_eq_decide] at hSign
  omega

------------------------------------------------------------
-- The text of a float
------------------------------------------------------------

/- The decimal that the text of a float is laid out from. -/
def ofFloat (x : Float) : Decimal :=
  if x == 0.0 then ⟨0, 0⟩ else (Binary.ofFloat x).shortest

/-
  A float is written with its sign, and its magnitude is
  laid out.
-/
theorem floatText_eq (x : Float) :
    floatText x =
      signed (isSignBitSet x)
        (layOut documentLayout (ofFloat x)) := by
  have hZero :
      layOut documentLayout ⟨0, 0⟩ = ['0', '.', '0'] := by
    decide
  unfold floatText ofFloat signed
  dsimp only
  rw [apply_ite (layOut documentLayout), hZero]

theorem value_ofFloat_eq_zero_iff (x : Float) :
    (ofFloat x).value = 0 ↔ (x == 0.0) = true := by
  unfold ofFloat
  split
  · next hZero =>
      refine iff_of_true ?_ hZero
      simp [Decimal.value]
  · next hSome =>
      refine iff_of_false ?_ hSome
      intro hValue
      exact
        hSome ((Binary.beq_zero_iff x).mpr
          (Binary.mantissa_eq_zero_of_value_shortest hValue))

/- Floats of one sign and one decimal value are the same. -/
theorem eq_of_value_ofFloat_eq
    {x y : Float}
    (hSign : isSignBitSet x = isSignBitSet y)
    (h : (ofFloat x).value = (ofFloat y).value) :
    x = y := by
  have hX := Binary.isCanonical_ofFloat x
  have hY := Binary.isCanonical_ofFloat y
  have hZero : (x == 0.0) = true ↔ (y == 0.0) = true := by
    rw [← value_ofFloat_eq_zero_iff, h, value_ofFloat_eq_zero_iff]
  apply Binary.eq_of_ofFloat_eq hSign
  by_cases hNone : (x == 0.0) = true
  · exact
      hX.eq_of_mantissa_eq_zero hY
        ((Binary.beq_zero_iff x).mp hNone)
        ((Binary.beq_zero_iff y).mp (hZero.mp hNone))
  · unfold ofFloat at h
    rw [if_neg hNone, if_neg (mt hZero.mpr hNone)] at h
    exact hX.eq_of_value_shortest_eq hY h

/- Different floats have different texts. -/
theorem floatText_injective
    {x y : Float}
    (h : floatText x = floatText y) :
    x = y := by
  rw [floatText_eq, floatText_eq] at h
  rcases signed_inj (beginsWithDigit_layOut _)
      (beginsWithDigit_layOut _) h with
    ⟨hSign, hText⟩
  apply eq_of_value_ofFloat_eq hSign
  rw [← textValue_layOut, hText, textValue_layOut]

/- No integer is written like a float. -/
theorem integerText_ne_floatText
    (n : ℤ)
    (x : Float) :
    integerText n ≠ floatText x := by
  intro h
  rw [integerText_eq, floatText_eq] at h
  rcases signed_inj (beginsWithDigit_naturalText _)
      (beginsWithDigit_layOut _) h with
    ⟨_, hText⟩
  have hDigits :
      ∀ c ∈ layOut documentLayout (ofFloat x),
        c.isDigit = true := by
    rw [← hText]
    exact fun _ => Scanner.isDigit_of_mem_naturalText
  rcases mark_mem_layOut (ofFloat x) with hPoint | hExponent
  · exact absurd (hDigits _ hPoint) (by decide)
  · exact absurd (hDigits _ hExponent) (by decide)

end Decimal

------------------------------------------------------------
-- The text of a number
------------------------------------------------------------

namespace Number

/- Different numbers have different texts. -/
theorem text_injective
    {a b : Number}
    (h : a.text = b.text) :
    a = b := by
  cases a with
  | int n =>
      cases b with
      | int m =>
          have hSame := Decimal.integerText_injective h
          rw [Int64.toInt_inj.mp hSame]
      | float y =>
          exact absurd h (Decimal.integerText_ne_floatText _ _)
  | float x =>
      cases b with
      | int m =>
          exact
            absurd h.symm (Decimal.integerText_ne_floatText _ _)
      | float y => rw [Decimal.floatText_injective h]

/-
  The text of a number: perhaps a sign, then a digit, and no
  other characters than those of numbers.
-/
theorem exists_signed_eq_text (n : Number) :
    ∃ negative text,
      Decimal.BeginsWithDigit text ∧
        (∀ c ∈ text, Decimal.isNumberChar c = true) ∧
          n.text = Decimal.signed negative text := by
  cases n with
  | int n =>
      exact
        ⟨_, _, Decimal.beginsWithDigit_naturalText _,
          fun _ hc =>
            Decimal.isNumberChar_of_isDigit
              (Scanner.isDigit_of_mem_naturalText hc),
          Decimal.integerText_eq n.toInt⟩
  | float x =>
      exact
        ⟨_, _, Decimal.beginsWithDigit_layOut _,
          Decimal.isNumberChar_layOut _,
          Decimal.floatText_eq x⟩

theorem isNumberChar_text (n : Number) :
    ∀ c ∈ n.text, Decimal.isNumberChar c = true := by
  rcases n.exists_signed_eq_text with
    ⟨negative, text, _, hChars, hText⟩
  rw [hText]
  cases negative with
  | false => exact hChars
  | true => exact List.forall_mem_cons.mpr ⟨rfl, hChars⟩

theorem text_ne_nil (n : Number) : n.text ≠ [] := by
  rcases n.exists_signed_eq_text with
    ⟨negative, text, ⟨c, rest, hFirst, _⟩, _, hText⟩
  rw [hText, hFirst]
  cases negative <;> exact List.cons_ne_nil _ _

end Number

end MapStyle
