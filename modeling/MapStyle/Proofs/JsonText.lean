import MapStyle.Json.Printer
import MapStyle.Proofs.NumberText

/-
  The text of a tree on one line says which tree it is, the
  order of members included. Of two texts that go on in some
  way, the trees in front are the same, and so is what follows
  them.

  Key definitions include:
    * `Json.readEscaped`
    * `Json.lead`

  Main statements:
    * `Json.quoted_append_inj`
    * `Json.compactChars_append_inj`
    * `Json.compact_injective`
-/

namespace MapStyle

namespace Json

------------------------------------------------------------
-- Strings
------------------------------------------------------------

/- Read the character that a text inside quotes begins with. -/
def readEscaped : List Char → Option (Char × List Char)
  | '\\' :: 'n' :: rest => some ('\n', rest)
  | '\\' :: 'r' :: rest => some ('\r', rest)
  | '\\' :: 't' :: rest => some ('\t', rest)
  | '\\' :: 'b' :: rest => some (Char.ofNat 8, rest)
  | '\\' :: 'f' :: rest => some (Char.ofNat 12, rest)
  | '\\' :: 'u' :: '0' :: '0' :: high :: low :: rest =>
      match Text.hexDigitValue? high, Text.hexDigitValue? low with
      | some h, some l => some (Char.ofNat (h * 16 + l), rest)
      | _, _ => none
  | '\\' :: c :: rest => some (c, rest)
  | c :: rest => some (c, rest)
  | [] => none

/- An escaped character is read back. -/
theorem readEscaped_escaped
    (c : Char)
    (rest : List Char) :
    readEscaped (escaped c ++ rest) = some (c, rest) := by
  have hOf {n : Nat} (h : c.toNat = n) : Char.ofNat n = c := by
    rw [← h, Char.ofNat_toNat]
  unfold escaped
  split
  · next h => rw [h]; rfl
  split
  · next h => rw [h]; rfl
  split
  · next h => rw [h]; rfl
  split
  · next h => rw [h]; rfl
  split
  · next h => rw [h]; rfl
  split
  · next h =>
      rw [← hOf h]
      rfl
  split
  · next h =>
      rw [← hOf h]
      rfl
  split
  · next h =>
      have hHigh :=
        Text.hexDigitValue?_hexDigit (c.toNat / 16) (by omega)
      have hLow :=
        Text.hexDigitValue?_hexDigit (c.toNat % 16) (by omega)
      simp only [List.cons_append, List.nil_append, readEscaped]
      rw [hHigh, hLow]
      dsimp only
      rw [hOf (by omega)]
  · next hBackslash _ _ _ _ _ _ =>
      rw [List.singleton_append]
      unfold readEscaped
      split <;> simp_all

/- No escaped character looks like the closing quote. -/
theorem escaped_append_ne
    (c : Char)
    (rest more : List Char) :
    escaped c ++ more ≠ '"' :: rest := by
  unfold escaped
  repeat' split
  all_goals
    intro h
    simp_all

/- The closing quote shows where characters end. -/
theorem flatMap_escaped_append_inj
    {chars others rest rest' : List Char}
    (h :
      chars.flatMap escaped ++ '"' :: rest =
        others.flatMap escaped ++ '"' :: rest') :
    chars = others ∧ rest = rest' := by
  induction chars generalizing others with
  | nil =>
      cases others with
      | nil => exact ⟨rfl, (List.cons.inj h).2⟩
      | cons d others =>
          rw [List.flatMap_cons, List.append_assoc] at h
          exact absurd h.symm (escaped_append_ne d _ _)
  | cons c chars ih =>
      rw [List.flatMap_cons, List.append_assoc] at h
      cases others with
      | nil => exact absurd h (escaped_append_ne c _ _)
      | cons d others =>
          rw [List.flatMap_cons, List.append_assoc] at h
          have hRead := congrArg readEscaped h
          rw [readEscaped_escaped, readEscaped_escaped,
            Option.some.injEq, Prod.mk.injEq] at hRead
          rcases hRead with ⟨rfl, hMore⟩
          rcases ih hMore with ⟨rfl, hRest⟩
          exact ⟨rfl, hRest⟩

/- A string between quotes ends where it is closed. -/
theorem quoted_append_inj
    {s t : String}
    {rest rest' : List Char}
    (h : quoted s ++ rest = quoted t ++ rest') :
    s = t ∧ rest = rest' := by
  unfold quoted at h
  rw [List.cons_append, List.cons_append, List.append_assoc,
    List.append_assoc] at h
  rcases flatMap_escaped_append_inj (List.cons.inj h).2 with
    ⟨hChars, hRest⟩
  exact ⟨String.toList_injective hChars, hRest⟩

------------------------------------------------------------
-- First characters
------------------------------------------------------------

/-
  What a character begins: one character stands for all that
  begin numbers, and one for those that begin truth values.
-/
def leadOf (c : Char) : Char :=
  if Decimal.isNumberChar c then '0'
  else if c = 'f' then 't'
  else c

/- What the text of a tree begins with. -/
def lead : Json → Char
  | .null => 'n'
  | .bool _ => 't'
  | .number _ => '0'
  | .text _ => '"'
  | .array _ => '['
  | .object _ => '\x7b'

theorem leadOf_head_compactChars
    (json : Json)
    (rest : List Char) :
    (json.compactChars ++ rest).head?.map leadOf =
      some json.lead := by
  cases json with
  | null => rfl
  | bool value => cases value <;> rfl
  | number n =>
      have hSome := n.text_ne_nil
      have hChars := n.isNumberChar_text
      rw [compactChars]
      cases hText : n.text with
      | nil => exact absurd hText hSome
      | cons c more =>
          have hFirst := hChars c (by simp [hText])
          simp [leadOf, hFirst, lead]
  | text s => rfl
  | array items => rfl
  | object members => rfl

/- Trees whose texts begin alike are of one kind. -/
theorem lead_eq_of_append_eq
    {a b : Json}
    {rest rest' : List Char}
    (h : a.compactChars ++ rest = b.compactChars ++ rest') :
    a.lead = b.lead := by
  rw [← Option.some.injEq, ← leadOf_head_compactChars a rest, h,
    leadOf_head_compactChars]

/- No tree begins like the end of an array. -/
theorem compactChars_append_ne
    (a : Json)
    (rest more : List Char) :
    a.compactChars ++ more ≠ ']' :: rest := by
  intro h
  have hHead := leadOf_head_compactChars a more
  rw [h] at hHead
  have hLead : ']' = a.lead := Option.some.inj hHead
  cases a <;> cases hLead

------------------------------------------------------------
-- Trees
------------------------------------------------------------

/- What stands behind the first item of an array. -/
def laterItems : List Json → List Char
  | [] => []
  | item :: rest => ',' :: compactItems (item :: rest)

/- What stands behind the first member of an object. -/
def laterMembers : List (String × Json) → List Char
  | [] => []
  | member :: rest => ',' :: compactMembers (member :: rest)

theorem compactItems_cons
    (item : Json)
    (rest : List Json) :
    compactItems (item :: rest) =
      item.compactChars ++ laterItems rest := by
  cases rest with
  | nil => rw [compactItems, laterItems, List.append_nil]
  | cons next rest =>
      rw [compactItems, laterItems]
      exact List.cons_ne_nil _ _

theorem compactMembers_cons
    (name : String)
    (value : Json)
    (rest : List (String × Json)) :
    compactMembers ((name, value) :: rest) =
      quoted name
        ++ ':' :: (value.compactChars ++ laterMembers rest) := by
  cases rest with
  | nil => rw [compactMembers, laterMembers, List.append_nil]
  | cons next rest =>
      rw [compactMembers, laterMembers, List.append_assoc,
        List.cons_append]
      exact List.cons_ne_nil _ _

/- What follows a tree does not go on like a number. -/
abbrev EndsTree (rest : List Char) : Prop :=
  Scanner.BeginsOutside Decimal.isNumberChar rest

theorem endsTree_laterItems
    (items : List Json)
    (rest : List Char) :
    EndsTree (laterItems items ++ ']' :: rest) := by
  cases items with
  | nil => exact Scanner.beginsOutside_cons.mpr rfl
  | cons item items => exact Scanner.beginsOutside_cons.mpr rfl

theorem endsTree_laterMembers
    (members : List (String × Json))
    (rest : List Char) :
    EndsTree (laterMembers members ++ '\x7d' :: rest) := by
  cases members with
  | nil => exact Scanner.beginsOutside_cons.mpr rfl
  | cons member members => exact Scanner.beginsOutside_cons.mpr rfl

/- A number ends where another character follows. -/
theorem text_append_inj
    {n m : Number}
    {rest rest' : List Char}
    (hRest : EndsTree rest)
    (hRest' : EndsTree rest')
    (h : n.text ++ rest = m.text ++ rest') :
    n = m ∧ rest = rest' := by
  have hText := congrArg (List.takeWhile Decimal.isNumberChar) h
  have hMore := congrArg (List.dropWhile Decimal.isNumberChar) h
  rw [Scanner.takeWhile_append n.isNumberChar_text hRest,
    Scanner.takeWhile_append m.isNumberChar_text hRest'] at hText
  rw [Scanner.dropWhile_append n.isNumberChar_text hRest,
    Scanner.dropWhile_append m.isNumberChar_text hRest'] at hMore
  exact ⟨Number.text_injective hText, hMore⟩

mutual

/- The text of a tree shows where the tree ends. -/
theorem compactChars_append_inj :
    (a b : Json) →
      ∀ {rest rest' : List Char},
        EndsTree rest → EndsTree rest' →
          a.compactChars ++ rest = b.compactChars ++ rest' →
            a = b ∧ rest = rest'
  | .null, b, rest, rest', _, _, h => by
      have hLead := lead_eq_of_append_eq h
      cases b with
      | null => exact ⟨rfl, List.append_cancel_left h⟩
      | _ => cases hLead
  | .bool value, b, rest, rest', _, _, h => by
      have hLead := lead_eq_of_append_eq h
      cases b with
      | bool other =>
          cases value <;> cases other
          · exact ⟨rfl, List.append_cancel_left h⟩
          · cases h
          · cases h
          · exact ⟨rfl, List.append_cancel_left h⟩
      | _ => cases hLead
  | .number n, b, rest, rest', hRest, hRest', h => by
      have hLead := lead_eq_of_append_eq h
      cases b with
      | number m =>
          rcases text_append_inj hRest hRest' h with
            ⟨rfl, hMore⟩
          exact ⟨rfl, hMore⟩
      | _ => cases hLead
  | .text s, b, rest, rest', _, _, h => by
      have hLead := lead_eq_of_append_eq h
      cases b with
      | text t =>
          rcases quoted_append_inj h with ⟨rfl, hMore⟩
          exact ⟨rfl, hMore⟩
      | _ => cases hLead
  | .array items, b, rest, rest', _, _, h => by
      have hLead := lead_eq_of_append_eq h
      cases b with
      | array others =>
          rw [compactChars, compactChars, List.cons_append,
            List.cons_append, List.append_assoc,
            List.append_assoc] at h
          rcases compactItems_append_inj items others
              (List.cons.inj h).2 with
            ⟨rfl, hMore⟩
          exact ⟨rfl, hMore⟩
      | _ => cases hLead
  | .object members, b, rest, rest', _, _, h => by
      have hLead := lead_eq_of_append_eq h
      cases b with
      | object others =>
          rw [compactChars, compactChars, List.cons_append,
            List.cons_append, List.append_assoc,
            List.append_assoc] at h
          rcases compactMembers_append_inj members others
              (List.cons.inj h).2 with
            ⟨rfl, hMore⟩
          exact ⟨rfl, hMore⟩
      | _ => cases hLead

/- The end of an array shows where its items end. -/
theorem compactItems_append_inj :
    (items others : List Json) →
      ∀ {rest rest' : List Char},
        compactItems items ++ ']' :: rest =
            compactItems others ++ ']' :: rest' →
          items = others ∧ rest = rest'
  | [], others, rest, rest', h => by
      cases others with
      | nil => exact ⟨rfl, (List.cons.inj h).2⟩
      | cons b others =>
          rw [compactItems_cons, List.append_assoc] at h
          exact absurd h.symm (compactChars_append_ne b _ _)
  | a :: items, others, rest, rest', h => by
      rw [compactItems_cons, List.append_assoc] at h
      cases others with
      | nil => exact absurd h (compactChars_append_ne a _ _)
      | cons b others =>
          rw [compactItems_cons, List.append_assoc] at h
          rcases compactChars_append_inj a b
              (endsTree_laterItems items rest)
              (endsTree_laterItems others rest') h with
            ⟨rfl, hMore⟩
          cases items with
          | nil =>
              cases others with
              | nil => exact ⟨rfl, (List.cons.inj hMore).2⟩
              | cons c others => cases hMore
          | cons c items =>
              cases others with
              | nil => cases hMore
              | cons d others =>
                  rcases compactItems_append_inj (c :: items)
                      (d :: others) (List.cons.inj hMore).2 with
                    ⟨hItems, hRest⟩
                  exact ⟨by rw [hItems], hRest⟩

/- The end of an object shows where its members end. -/
theorem compactMembers_append_inj :
    (members others : List (String × Json)) →
      ∀ {rest rest' : List Char},
        compactMembers members ++ '\x7d' :: rest =
            compactMembers others ++ '\x7d' :: rest' →
          members = others ∧ rest = rest'
  | [], others, rest, rest', h => by
      cases others with
      | nil => exact ⟨rfl, (List.cons.inj h).2⟩
      | cons b others =>
          rw [compactMembers_cons] at h
          cases h
  | (name, a) :: members, others, rest, rest', h => by
      rw [compactMembers_cons, List.append_assoc,
        List.cons_append, List.append_assoc] at h
      cases others with
      | nil => cases h
      | cons b others =>
          rcases b with ⟨name', b⟩
          rw [compactMembers_cons, List.append_assoc,
            List.cons_append, List.append_assoc] at h
          rcases quoted_append_inj h with ⟨rfl, hValue⟩
          rcases compactChars_append_inj a b
              (endsTree_laterMembers members rest)
              (endsTree_laterMembers others rest')
              (List.cons.inj hValue).2 with
            ⟨rfl, hMore⟩
          cases members with
          | nil =>
              cases others with
              | nil => exact ⟨rfl, (List.cons.inj hMore).2⟩
              | cons c others => cases hMore
          | cons c members =>
              cases others with
              | nil => cases hMore
              | cons d others =>
                  rcases compactMembers_append_inj (c :: members)
                      (d :: others) (List.cons.inj hMore).2 with
                    ⟨hMembers, hRest⟩
                  exact ⟨by rw [hMembers], hRest⟩

end

/- Different trees have different texts. -/
theorem compact_injective
    {a b : Json}
    (h : a.compact = b.compact) :
    a = b := by
  have hChars := String.ofList_injective h
  have hEnd : EndsTree [] := Scanner.beginsOutside_nil
  have hText : a.compactChars ++ [] = b.compactChars ++ [] := by
    rw [hChars]
  exact (compactChars_append_inj a b hEnd hEnd hText).1

end Json

end MapStyle
