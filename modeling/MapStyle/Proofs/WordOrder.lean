import Mathlib.Data.List.Shortlex
import Mathlib.Order.Defs.LinearOrder
import MapStyle.Proofs.Naming

/-
  The alphabetic numbering goes through all words: shorter
  ones first, and those of one length in the order of a
  dictionary, without a gap and without a repetition.

  Key definitions include:
    * `Text.IsWord`

  Main statements:
    * `Text.alphabetic_next`
    * `Text.shortlex_of_lt`
    * `Text.exists_alphabetic_eq`
    * `Text.alphabetic_enumerates`
-/

namespace MapStyle

namespace Text

------------------------------------------------------------
-- Letters
------------------------------------------------------------

/- A character is one of the twenty-six letters. -/
def IsLetter (c : Char) : Prop :=
  'a' ≤ c ∧ c ≤ 'z'

/- A word has at least one character, and only letters. -/
def IsWord (word : List Char) : Prop :=
  word ≠ [] ∧ ∀ c ∈ word, IsLetter c

theorem toNat_letter
    {i : Nat}
    (h : i < 26) :
    (letter i).toNat = 'a'.toNat + i := by
  have hAll :
      ∀ i < 26, (letter i).toNat = 'a'.toNat + i := by
    decide +kernel
  exact hAll i h

theorem isLetter_iff {c : Char} :
    IsLetter c ↔ ∃ i < 26, letter i = c := by
  have hRange : IsLetter c ↔ 97 ≤ c.toNat ∧ c.toNat ≤ 122 :=
    Iff.rfl
  have hFirst : 'a'.toNat = 97 := rfl
  rw [hRange]
  constructor
  · rintro ⟨hLow, hHigh⟩
    refine ⟨c.toNat - 97, by omega, ?_⟩
    apply Char.toNat_inj.mp
    rw [toNat_letter (by omega), hFirst]
    omega
  · rintro ⟨i, hi, rfl⟩
    rw [toNat_letter hi, hFirst]
    omega

theorem letter_lt
    {i j : Nat}
    (hLess : i < j)
    (h : j < 26) : letter i < letter j := by
  have hNumbers : (letter i).toNat < (letter j).toNat := by
    rw [toNat_letter (by omega), toNat_letter h]
    omega
  exact hNumbers

------------------------------------------------------------
-- Numbers of words
------------------------------------------------------------

theorem alphabetic_of_lt
    {n : Nat}
    (h : n < 26) : alphabetic n = [letter n] := by
  rw [alphabetic, alphabeticRev, if_pos h]
  rfl

/-
  A longer word continues the one whose number is one less
  than the quotient: each length begins where the shorter
  words end.
-/
theorem alphabetic_of_le
    {n : Nat}
    (h : 26 ≤ n) :
    alphabetic n =
      alphabetic (n / 26 - 1) ++ [letter (n % 26)] := by
  rw [alphabetic, alphabeticRev, if_neg (by omega),
    List.reverse_cons]
  rfl

/- The words that continue a word follow each other. -/
theorem alphabetic_next
    (n : Nat)
    {i : Nat}
    (h : i < 26) :
    alphabetic (26 * (n + 1) + i) =
      alphabetic n ++ [letter i] := by
  have hQuotient : (26 * (n + 1) + i) / 26 - 1 = n := by omega
  have hRemainder : (26 * (n + 1) + i) % 26 = i := by omega
  rw [alphabetic_of_le (by omega), hQuotient, hRemainder]

theorem isWord_alphabetic (n : Nat) : IsWord (alphabetic n) := by
  refine ⟨alphabetic_ne_nil n, ?_⟩
  intro c hc
  rw [alphabetic, List.mem_reverse] at hc
  rcases exists_letter_of_mem_alphabeticRev hc with ⟨i, hi, rfl⟩
  exact isLetter_iff.mpr ⟨i, hi, rfl⟩

------------------------------------------------------------
-- Order
------------------------------------------------------------

section Order

variable {α : Type} {r : α → α → Prop} {s t u v : List α}

/- What follows does not matter to lists of one length. -/
theorem lex_append_append
    (h : List.Lex r s t)
    (hLength : s.length = t.length) :
    List.Lex r (s ++ u) (t ++ v) := by
  induction h with
  | nil => cases hLength
  | rel hHead => exact .rel hHead
  | cons _ ih => exact .cons (ih (Nat.succ.inj hLength))

theorem shortlex_append_append
    (h : List.Shortlex r s t)
    (hLength : u.length = v.length) :
    List.Shortlex r (s ++ u) (t ++ v) := by
  rcases List.shortlex_def.mp h with hShorter | ⟨hSame, hLex⟩
  · apply List.Shortlex.of_length_lt
    rw [List.length_append, List.length_append]
    omega
  · apply List.Shortlex.of_lex
    · rw [List.length_append, List.length_append, hSame, hLength]
    · exact lex_append_append hLex hSame

end Order

/- The order of words by length, and then by their letters. -/
abbrev Precedes : List Char → List Char → Prop :=
  List.Shortlex (· < ·)

/-
  A greater number has a later word. Words of several letters
  are compared by the words that they continue, and else by
  their last letters.
-/
theorem shortlex_of_lt
    {m n : Nat}
    (h : m < n) :
    Precedes (alphabetic m) (alphabetic n) := by
  induction n using alphabeticRev.induct generalizing m with
  | case1 n hShort =>
      rw [alphabetic_of_lt hShort,
        alphabetic_of_lt (h.trans hShort)]
      exact (List.shortlex_singleton_iff _ _).mpr
        (letter_lt h hShort)
  | case2 n hLong ih =>
      rw [alphabetic_of_le (Nat.not_lt.mp hLong)]
      by_cases hFirst : m < 26
      · rw [alphabetic_of_lt hFirst]
        have hPositive :=
          List.length_pos_iff.mpr (alphabetic_ne_nil (n / 26 - 1))
        apply List.Shortlex.of_length_lt
        rw [List.length_append]
        exact Nat.lt_add_of_pos_left hPositive
      · rw [alphabetic_of_le (Nat.not_lt.mp hFirst)]
        rcases Nat.lt_or_ge (m / 26) (n / 26) with hLess | hGe
        · exact shortlex_append_append (ih (by omega)) rfl
        · have hSame : m / 26 = n / 26 := by omega
          rw [hSame]
          apply List.Shortlex.append_left
          exact (List.shortlex_singleton_iff _ _).mpr
            (letter_lt (by omega) (Nat.mod_lt _ (by decide)))

theorem shortlex_alphabetic_iff
    {m n : Nat} :
    Precedes (alphabetic m) (alphabetic n) ↔ m < n := by
  refine ⟨?_, shortlex_of_lt⟩
  intro h
  rcases Nat.lt_trichotomy m n with hLess | rfl | hGreater
  · exact hLess
  · exact absurd h (irrefl _)
  · exact absurd h (asymm (shortlex_of_lt hGreater))

------------------------------------------------------------
-- Completeness
------------------------------------------------------------

/- Every word has a number. -/
theorem exists_alphabetic_eq
    {word : List Char}
    (h : IsWord word) : ∃ n, alphabetic n = word := by
  rcases h with ⟨hNe, hLetters⟩
  induction word using List.reverseRecOn with
  | nil => exact absurd rfl hNe
  | append_singleton start c ih =>
      rw [List.forall_mem_append, List.forall_mem_singleton]
        at hLetters
      rcases isLetter_iff.mp hLetters.2 with ⟨i, hi, rfl⟩
      by_cases hEmpty : start = []
      · rw [hEmpty]
        exact ⟨i, alphabetic_of_lt hi⟩
      · rcases ih hEmpty hLetters.1 with ⟨n, rfl⟩
        exact ⟨26 * (n + 1) + i, alphabetic_next n hi⟩

/-
  The words that are numbered are the non-empty ones over the
  letters from a to z. Each of them has one number, and the
  order of the numbers is that of the words by length and then
  by the alphabet.
-/
theorem alphabetic_enumerates :
    (∀ n, IsWord (alphabetic n)) ∧
      (∀ m n, m < n ↔ Precedes (alphabetic m) (alphabetic n)) ∧
      ∀ word, IsWord word ↔ ∃! n, alphabetic n = word := by
  refine
    ⟨isWord_alphabetic, fun m n => shortlex_alphabetic_iff.symm,
      ?_⟩
  intro word
  constructor
  · intro hWord
    rcases exists_alphabetic_eq hWord with ⟨n, rfl⟩
    exact ⟨n, rfl, fun m hm => alphabetic_injective hm⟩
  · rintro ⟨n, rfl, _⟩
    exact isWord_alphabetic n

/- The last word of two letters and the first one of three. -/
example :
    alphabetic 701 = ['z', 'z'] ∧
      alphabetic 702 = ['a', 'a', 'a'] := by
  decide +kernel

end Text

end MapStyle
