import Mathlib
import MapStyle.Proofs.Bag
import MapStyle.Value

/-
  Structural equality of values and expressions. It is always
  transitive. It is symmetric as long as no mapping repeats a
  name, and reflexive if in addition no number is NaN.

  Key definitions include:
    * `Value.every`
    * `Expression.IsProper`
    * `Expression.HasNoNaN`

  Main statements:
    * `Expression.same_symm`
    * `Expression.same_trans`
    * `Expression.same_self`
-/

namespace MapStyle

------------------------------------------------------------
-- Values inside of others
------------------------------------------------------------

mutual

/- Whether a value and all values inside of it pass a test. -/
def Value.every (test : Value → Bool) : Value → Bool
  | .list items =>
      test (.list items) && Value.everyItem test items
  | .map entries =>
      test (.map entries) && Value.everyEntry test entries
  | .expr e => test (.expr e) && Expression.every test e
  | v => test v

/- Whether all values inside of an expression do. -/
def Expression.every (test : Value → Bool) : Expression → Bool
  | .pass v => Value.every test v
  | .node _ operands => Value.everyItem test operands

/- Whether all values inside of items do. -/
def Value.everyItem (test : Value → Bool) : List Value → Bool
  | [] => true
  | v :: rest => Value.every test v && Value.everyItem test rest

/- Whether all values inside of entries do. -/
def Value.everyEntry
    (test : Value → Bool) : List (String × Value) → Bool
  | [] => true
  | (_, v) :: rest =>
      Value.every test v && Value.everyEntry test rest

end

/- Whether a mapping has each name only once. -/
def Value.isProper : Value → Bool
  | .map entries => decide (entries.map Prod.fst).Nodup
  | _ => true

/- Whether a number is NaN. -/
def Number.isNaN : Number → Bool
  | .int _ => false
  | .float x => x.isNaN

/- Whether a float or a range is without NaN. -/
def Value.isNoNaN : Value → Bool
  | .float x => !x.isNaN
  | .range r =>
      !r.lower.any Number.isNaN && !r.upper.any Number.isNaN
  | _ => true

/- No mapping inside of an expression repeats a name. -/
def Expression.IsProper (e : Expression) : Prop :=
  e.every Value.isProper = true

/- No number inside of an expression is NaN. -/
def Expression.HasNoNaN (e : Expression) : Prop :=
  e.every Value.isNoNaN = true

------------------------------------------------------------
-- Numbers and ranges
------------------------------------------------------------

/- NaN is the only float that is not equal to itself. -/
theorem Float.beq_self_of_not_isNaN
    {x : Float}
    (h : x.isNaN = false) :
    (x == x) = true := by
  rw [Float.isNaN_eq_decide_eq_nan,
    decide_eq_false_iff_not] at h
  exact Float.beq_self_iff.mpr h

namespace Number

theorem same_self
    {a : Number}
    (h : a.isNaN = false) :
    a.same a = true := by
  cases a with
  | int n => exact BEq.rfl
  | float x => exact Float.beq_self_of_not_isNaN h

/-
  An integer and a float are never the same, so both numbers
  are of one kind.
-/
theorem same_symm
    {a b : Number}
    (h : a.same b = true) :
    b.same a = true := by
  cases a with
  | int n =>
      cases b with
      | int m => exact BEq.symm h
      | float y => cases h
  | float x =>
      cases b with
      | int m => cases h
      | float y => exact BEq.symm h

theorem same_trans
    {a b c : Number}
    (hFirst : a.same b = true)
    (hSecond : b.same c = true) :
    a.same c = true := by
  cases a <;> cases b <;> cases c <;>
    first
    | exact BEq.trans hFirst hSecond
    | cases hFirst
    | cases hSecond

end Number

namespace ZoomRange

/- A bound that is missing is the same as itself. -/
theorem sameBound_self
    {a : Option Number}
    (h : a.any Number.isNaN = false) :
    sameBound a a = true := by
  cases a with
  | none => rfl
  | some n => exact Number.same_self h

theorem sameBound_symm
    {a b : Option Number}
    (h : sameBound a b = true) :
    sameBound b a = true := by
  cases a with
  | none =>
      cases b with
      | none => rfl
      | some m => cases h
  | some n =>
      cases b with
      | none => cases h
      | some m => exact Number.same_symm h

theorem sameBound_trans
    {a b c : Option Number}
    (hFirst : sameBound a b = true)
    (hSecond : sameBound b c = true) :
    sameBound a c = true := by
  cases a <;> cases b <;> cases c <;>
    first
    | exact Number.same_trans hFirst hSecond
    | exact hFirst
    | exact hSecond
    | cases hFirst

variable {a b c : ZoomRange}

/- Ranges are compared bound by bound. -/
theorem same_iff :
    a.same b = true ↔
      sameBound a.lower b.lower = true ∧
        sameBound a.upper b.upper = true :=
  Bool.and_eq_true_iff

/- A range is without NaN if its bounds are. -/
theorem same_self
    (h : (Value.range a).isNoNaN = true) :
    a.same a = true := by
  rw [Value.isNoNaN, Bool.and_eq_true, Bool.not_eq_true',
    Bool.not_eq_true'] at h
  exact
    same_iff.mpr ⟨sameBound_self h.1, sameBound_self h.2⟩

theorem same_symm
    (h : a.same b = true) :
    b.same a = true := by
  rcases same_iff.mp h with ⟨hLower, hUpper⟩
  exact
    same_iff.mpr
      ⟨sameBound_symm hLower, sameBound_symm hUpper⟩

theorem same_trans
    (hFirst : a.same b = true)
    (hSecond : b.same c = true) :
    a.same c = true := by
  rcases same_iff.mp hFirst with ⟨hLower, hUpper⟩
  rcases same_iff.mp hSecond with ⟨hNextLower, hNextUpper⟩
  exact
    same_iff.mpr
      ⟨sameBound_trans hLower hNextLower,
        sameBound_trans hUpper hNextUpper⟩

end ZoomRange

------------------------------------------------------------
-- Entries
------------------------------------------------------------

namespace Value

/- Each entry is looked up among those of the other mapping. -/
theorem sameEntries_cons_iff
    {name : String}
    {a : Value}
    {rest others : List (String × Value)} :
    sameEntries ((name, a) :: rest) others = true ↔
      (∃ b,
        Entries.find? name others = some b ∧
          a.same b = true) ∧
        sameEntries rest others = true := by
  rw [sameEntries, Bool.and_eq_true]
  cases Entries.find? name others <;> simp

/- The order of the entries does not matter. -/
theorem sameEntries_iff
    {entries others : List (String × Value)} :
    sameEntries entries others = true ↔
      ∀ entry ∈ entries,
        ∃ b,
          Entries.find? entry.1 others = some b ∧
            entry.2.same b = true := by
  induction entries with
  | nil => simp [sameEntries]
  | cons entry rest ih =>
      rw [sameEntries_cons_iff, ih, List.forall_mem_cons]

/-
  Two mappings of one length, of which the first repeats no
  name and has all its names in the second: neither does the
  second repeat one, and both have the same names.
-/
theorem names_perm
    {entries others : List (String × Value)}
    (hNodup : (entries.map Prod.fst).Nodup)
    (hLength : entries.length = others.length)
    (hSame : sameEntries entries others = true) :
    List.Perm (entries.map Prod.fst) (others.map Prod.fst) := by
  have hSubset :
      entries.map Prod.fst ⊆ others.map Prod.fst := by
    intro name hName
    rcases List.mem_map.mp hName with ⟨entry, hEntry, rfl⟩
    rcases sameEntries_iff.mp hSame entry hEntry with
      ⟨b, hFound, _⟩
    exact
      List.mem_map.mpr
        ⟨(entry.1, b), Entries.mem_of_find? hFound, rfl⟩
  apply (hNodup.subperm hSubset).perm_of_length_le
  rw [List.length_map, List.length_map, hLength]

/- Then equality of the entries is symmetric if it is inside. -/
theorem sameEntries_symm
    {entries others : List (String × Value)}
    (hNodup : (entries.map Prod.fst).Nodup)
    (hLength : entries.length = others.length)
    (hSymm :
      ∀ entry ∈ entries,
        ∀ {b : Value},
          entry.2.same b = true → b.same entry.2 = true)
    (hSame : sameEntries entries others = true) :
    sameEntries others entries = true := by
  have hPerm := names_perm hNodup hLength hSame
  have hOthers : (others.map Prod.fst).Nodup :=
    hPerm.nodup_iff.mp hNodup
  apply sameEntries_iff.mpr
  rintro ⟨name, b⟩ hOther
  have hName : name ∈ entries.map Prod.fst :=
    hPerm.mem_iff.mpr (List.mem_map_of_mem hOther)
  rcases List.mem_map.mp hName with ⟨⟨_, a⟩, hEntry, rfl⟩
  rcases sameEntries_iff.mp hSame _ hEntry with
    ⟨found, hFound, hValue⟩
  rw [(Entries.find?_eq_some_iff hOthers _ b).mpr hOther]
    at hFound
  cases hFound
  exact
    ⟨a, (Entries.find?_eq_some_iff hNodup _ a).mpr hEntry,
      hSymm _ hEntry hValue⟩

end Value

------------------------------------------------------------
-- What equals a value
------------------------------------------------------------

namespace Value

variable {b : Value}

/- Whether nothing but the value itself is equal to it. -/
def isExact : Value → Bool
  | .null | .bool _ | .int _ | .text _ | .color _ => true
  | _ => false

/- For such a value, equality is identity. -/
theorem same_iff_eq
    {a : Value}
    (h : a.isExact = true) :
    a.same b = true ↔ a = b := by
  cases a with
  | float _ | list _ | map _ | range _ | expr _ => cases h
  | _ => cases b <;> simp [same]

/- So it is symmetric and transitive at once. -/
theorem same_symm_of_isExact
    {a : Value}
    (hExact : a.isExact = true)
    (h : a.same b = true) :
    b.same a = true := by
  have hSame := (same_iff_eq hExact).mp h
  subst hSame
  exact h

theorem same_trans_of_isExact
    {a c : Value}
    (hExact : a.isExact = true)
    (hFirst : a.same b = true)
    (hSecond : b.same c = true) :
    a.same c = true := by
  rw [(same_iff_eq hExact).mp hFirst]
  exact hSecond

/-
  A value is compared with another one of its own kind only;
  one equivalence for each kind.
-/
theorem float_same_iff
    {x : Float} :
    (float x).same b = true ↔
      ∃ y, b = .float y ∧ (x == y) = true := by
  cases b <;> simp [same]

theorem range_same_iff
    {r : ZoomRange} :
    (range r).same b = true ↔
      ∃ s, b = .range s ∧ r.same s = true := by
  cases b <;> simp [same]

theorem list_same_iff
    {items : List Value} :
    (list items).same b = true ↔
      ∃ others,
        b = .list others ∧ sameItems items others = true := by
  cases b <;> simp [same]

/-
  Mappings are equal with the same number of entries, in
  whatever order.
-/
theorem map_same_iff
    {entries : List (String × Value)} :
    (map entries).same b = true ↔
      ∃ others,
        b = .map others ∧
          entries.length = others.length ∧
            sameEntries entries others = true := by
  cases b <;> simp [same]

theorem expr_same_iff
    {e : Expression} :
    (expr e).same b = true ↔
      ∃ f, b = .expr f ∧ e.same f = true := by
  cases b <;> simp [same]

end Value

namespace Expression

variable {b : Expression}

/- The same for expressions. -/
theorem pass_same_iff
    {v : Value} :
    (pass v).same b = true ↔
      ∃ w, b = .pass w ∧ v.same w = true := by
  cases b <;> simp [same]

theorem node_same_iff
    {operator : String}
    {operands : List Value} :
    (node operator operands).same b = true ↔
      ∃ others,
        b = .node operator others ∧
          Value.sameItems operands others = true := by
  cases b with
  | pass w => simp [same]
  | node other others =>
      simp [same, eq_comm (a := operator)]

end Expression

------------------------------------------------------------
-- Symmetry
------------------------------------------------------------

mutual

/-
  Symmetry, by recursion on the first value along with all
  that is nested in it. Mappings need distinct names: with
  one repeated, an entry might be found twice.
-/
theorem Value.same_symm :
    (a : Value) →
      a.every Value.isProper = true →
        ∀ {b : Value}, a.same b = true → b.same a = true
  | .list items, hProper, b, h => by
      rw [Value.every, Bool.and_eq_true] at hProper
      rcases Value.list_same_iff.mp h with ⟨others, rfl, hItems⟩
      exact
        Value.list_same_iff.mpr
          ⟨items, rfl,
            Value.sameItems_symm items hProper.2 hItems⟩
  | .map entries, hProper, b, h => by
      rw [Value.every, Bool.and_eq_true] at hProper
      rcases Value.map_same_iff.mp h with
        ⟨others, rfl, hLength, hEntries⟩
      have hNodup := of_decide_eq_true hProper.1
      exact
        Value.map_same_iff.mpr
          ⟨entries, rfl, hLength.symm,
            Value.sameEntries_symm hNodup hLength
              (Value.same_symm_of_mem entries hProper.2)
              hEntries⟩
  | .expr e, hProper, b, h => by
      rw [Value.every, Bool.and_eq_true] at hProper
      rcases Value.expr_same_iff.mp h with ⟨f, rfl, hSame⟩
      exact
        Value.expr_same_iff.mpr
          ⟨e, rfl, Expression.same_symm e hProper.2 hSame⟩
  | .float x, _, b, h => by
      rcases Value.float_same_iff.mp h with ⟨y, rfl, hSame⟩
      exact
        Value.float_same_iff.mpr ⟨x, rfl, BEq.symm hSame⟩
  | .range r, _, b, h => by
      rcases Value.range_same_iff.mp h with ⟨s, rfl, hSame⟩
      exact
        Value.range_same_iff.mpr
          ⟨r, rfl, ZoomRange.same_symm hSame⟩
  | .null, _, b, h => Value.same_symm_of_isExact rfl h
  | .bool x, _, b, h => Value.same_symm_of_isExact rfl h
  | .int n, _, b, h => Value.same_symm_of_isExact rfl h
  | .text s, _, b, h => Value.same_symm_of_isExact rfl h
  | .color x, _, b, h => Value.same_symm_of_isExact rfl h

/- Equality is symmetric where no mapping repeats a name. -/
theorem Expression.same_symm :
    (a : Expression) →
      a.IsProper →
        ∀ {b : Expression}, a.same b = true → b.same a = true
  | .pass v, hProper, b, h => by
      rcases Expression.pass_same_iff.mp h with ⟨w, rfl, hSame⟩
      exact
        Expression.pass_same_iff.mpr
          ⟨v, rfl, Value.same_symm v hProper hSame⟩
  | .node operator operands, hProper, b, h => by
      rcases Expression.node_same_iff.mp h with
        ⟨others, rfl, hItems⟩
      exact
        Expression.node_same_iff.mpr
          ⟨operands, rfl,
            Value.sameItems_symm operands hProper hItems⟩

theorem Value.sameItems_symm :
    (items : List Value) →
      Value.everyItem Value.isProper items = true →
        ∀ {others : List Value},
          Value.sameItems items others = true →
            Value.sameItems others items = true
  | [], _, others, h => by
      cases others with
      | nil => exact h
      | cons b bs => simp [Value.sameItems] at h
  | a :: as, hProper, others, h => by
      cases others with
      | nil => simp [Value.sameItems] at h
      | cons b bs =>
          rw [Value.everyItem, Bool.and_eq_true] at hProper
          rw [Value.sameItems, Bool.and_eq_true] at h ⊢
          exact
            ⟨Value.same_symm a hProper.1 h.1,
              Value.sameItems_symm as hProper.2 h.2⟩

theorem Value.same_symm_of_mem :
    (entries : List (String × Value)) →
      Value.everyEntry Value.isProper entries = true →
        ∀ entry ∈ entries,
          ∀ {b : Value},
            entry.2.same b = true → b.same entry.2 = true
  | [], _, entry, hEntry, b, h => by
      cases hEntry
  | (name, a) :: rest, hProper, entry, hEntry, b, h => by
      rw [Value.everyEntry, Bool.and_eq_true] at hProper
      rcases List.mem_cons.mp hEntry with rfl | hRest
      · exact Value.same_symm a hProper.1 h
      · exact
          Value.same_symm_of_mem rest hProper.2 entry hRest h

end

------------------------------------------------------------
-- Transitivity
------------------------------------------------------------

mutual

/-
  Transitivity needs no such condition: entries are looked
  up from the left to the right both times.
-/
theorem Value.same_trans :
    (a : Value) →
      ∀ {b c : Value},
        a.same b = true → b.same c = true → a.same c = true
  | .list items, b, c, hFirst, hSecond => by
      rcases Value.list_same_iff.mp hFirst with
        ⟨others, rfl, hItems⟩
      rcases Value.list_same_iff.mp hSecond with
        ⟨last, rfl, hOthers⟩
      exact
        Value.list_same_iff.mpr
          ⟨last, rfl,
            Value.sameItems_trans items hItems hOthers⟩
  | .map entries, b, c, hFirst, hSecond => by
      rcases Value.map_same_iff.mp hFirst with
        ⟨others, rfl, hLength, hEntries⟩
      rcases Value.map_same_iff.mp hSecond with
        ⟨last, rfl, hNextLength, hOthers⟩
      exact
        Value.map_same_iff.mpr
          ⟨last, rfl, hLength.trans hNextLength,
            Value.sameEntries_trans entries hEntries hOthers⟩
  | .expr e, b, c, hFirst, hSecond => by
      rcases Value.expr_same_iff.mp hFirst with ⟨f, rfl, hSame⟩
      rcases Value.expr_same_iff.mp hSecond with ⟨g, rfl, hNext⟩
      exact
        Value.expr_same_iff.mpr
          ⟨g, rfl, Expression.same_trans e hSame hNext⟩
  | .float x, b, c, hFirst, hSecond => by
      rcases Value.float_same_iff.mp hFirst with ⟨y, rfl, hSame⟩
      rcases Value.float_same_iff.mp hSecond with
        ⟨z, rfl, hNext⟩
      exact
        Value.float_same_iff.mpr
          ⟨z, rfl, BEq.trans hSame hNext⟩
  | .range r, b, c, hFirst, hSecond => by
      rcases Value.range_same_iff.mp hFirst with ⟨s, rfl, hSame⟩
      rcases Value.range_same_iff.mp hSecond with
        ⟨t, rfl, hNext⟩
      exact
        Value.range_same_iff.mpr
          ⟨t, rfl, ZoomRange.same_trans hSame hNext⟩
  | .null, b, c, hFirst, hSecond =>
      Value.same_trans_of_isExact rfl hFirst hSecond
  | .bool x, b, c, hFirst, hSecond =>
      Value.same_trans_of_isExact rfl hFirst hSecond
  | .int n, b, c, hFirst, hSecond =>
      Value.same_trans_of_isExact rfl hFirst hSecond
  | .text s, b, c, hFirst, hSecond =>
      Value.same_trans_of_isExact rfl hFirst hSecond
  | .color x, b, c, hFirst, hSecond =>
      Value.same_trans_of_isExact rfl hFirst hSecond

theorem Expression.same_trans :
    (a : Expression) →
      ∀ {b c : Expression},
        a.same b = true → b.same c = true → a.same c = true
  | .pass v, b, c, hFirst, hSecond => by
      rcases Expression.pass_same_iff.mp hFirst with
        ⟨w, rfl, hSame⟩
      rcases Expression.pass_same_iff.mp hSecond with
        ⟨u, rfl, hNext⟩
      exact
        Expression.pass_same_iff.mpr
          ⟨u, rfl, Value.same_trans v hSame hNext⟩
  | .node operator operands, b, c, hFirst, hSecond => by
      rcases Expression.node_same_iff.mp hFirst with
        ⟨others, rfl, hItems⟩
      rcases Expression.node_same_iff.mp hSecond with
        ⟨last, rfl, hOthers⟩
      exact
        Expression.node_same_iff.mpr
          ⟨last, rfl,
            Value.sameItems_trans operands hItems hOthers⟩

theorem Value.sameItems_trans :
    (items : List Value) →
      ∀ {others last : List Value},
        Value.sameItems items others = true →
          Value.sameItems others last = true →
            Value.sameItems items last = true
  | [], others, last, hFirst, hSecond => by
      cases others with
      | nil => exact hSecond
      | cons b bs => simp [Value.sameItems] at hFirst
  | a :: as, others, last, hFirst, hSecond => by
      cases others with
      | nil => simp [Value.sameItems] at hFirst
      | cons b bs =>
          cases last with
          | nil => simp [Value.sameItems] at hSecond
          | cons c cs =>
              rw [Value.sameItems, Bool.and_eq_true]
                at hFirst hSecond ⊢
              exact
                ⟨Value.same_trans a hFirst.1 hSecond.1,
                  Value.sameItems_trans as hFirst.2 hSecond.2⟩

theorem Value.sameEntries_trans :
    (entries : List (String × Value)) →
      ∀ {others last : List (String × Value)},
        Value.sameEntries entries others = true →
          Value.sameEntries others last = true →
            Value.sameEntries entries last = true
  | [], others, last, _, _ => by
      rw [Value.sameEntries]
  | (name, a) :: rest, others, last, hFirst, hSecond => by
      rw [Value.sameEntries_cons_iff] at hFirst ⊢
      rcases hFirst with ⟨⟨b, hFound, hSame⟩, hRest⟩
      rcases Value.sameEntries_iff.mp hSecond _
          (Entries.mem_of_find? hFound) with
        ⟨c, hNextFound, hNext⟩
      exact
        ⟨⟨c, hNextFound, Value.same_trans a hSame hNext⟩,
          Value.sameEntries_trans rest hRest hSecond⟩

end

------------------------------------------------------------
-- Reflexivity
------------------------------------------------------------

mutual

/-
  Reflexivity needs both conditions. A name that is repeated
  would find the first value under it.
-/
theorem Value.same_self :
    (a : Value) →
      a.every Value.isProper = true →
        a.every Value.isNoNaN = true → a.same a = true
  | .list items, hProper, hNumbers => by
      rw [Value.every, Bool.and_eq_true] at hProper hNumbers
      exact
        Value.list_same_iff.mpr
          ⟨items, rfl,
            Value.sameItems_self items hProper.2 hNumbers.2⟩
  | .map entries, hProper, hNumbers => by
      rw [Value.every, Bool.and_eq_true] at hProper hNumbers
      have hNodup := of_decide_eq_true hProper.1
      have hSelf :=
        Value.same_self_of_mem entries hProper.2 hNumbers.2
      apply Value.map_same_iff.mpr
      refine ⟨entries, rfl, rfl, ?_⟩
      apply Value.sameEntries_iff.mpr
      intro entry hEntry
      exact
        ⟨entry.2,
          (Entries.find?_eq_some_iff hNodup _ _).mpr hEntry,
          hSelf entry hEntry⟩
  | .expr e, hProper, hNumbers => by
      rw [Value.every, Bool.and_eq_true] at hProper hNumbers
      exact
        Value.expr_same_iff.mpr
          ⟨e, rfl,
            Expression.same_self e hProper.2 hNumbers.2⟩
  | .float x, _, hNumbers => by
      have hNumber : x.isNaN = false :=
        (Bool.not_eq_true' _).mp hNumbers
      exact
        Value.float_same_iff.mpr
          ⟨x, rfl, Float.beq_self_of_not_isNaN hNumber⟩
  | .range r, _, hNumbers =>
      Value.range_same_iff.mpr
        ⟨r, rfl, ZoomRange.same_self hNumbers⟩
  | .null, _, _ => (Value.same_iff_eq rfl).mpr rfl
  | .bool x, _, _ => (Value.same_iff_eq rfl).mpr rfl
  | .int n, _, _ => (Value.same_iff_eq rfl).mpr rfl
  | .text s, _, _ => (Value.same_iff_eq rfl).mpr rfl
  | .color x, _, _ => (Value.same_iff_eq rfl).mpr rfl

/- It is reflexive if no number is NaN in addition. -/
theorem Expression.same_self :
    (a : Expression) →
      a.IsProper → a.HasNoNaN → a.same a = true
  | .pass v, hProper, hNumbers =>
      Expression.pass_same_iff.mpr
        ⟨v, rfl, Value.same_self v hProper hNumbers⟩
  | .node _ operands, hProper, hNumbers =>
      Expression.node_same_iff.mpr
        ⟨operands, rfl,
          Value.sameItems_self operands hProper hNumbers⟩

theorem Value.sameItems_self :
    (items : List Value) →
      Value.everyItem Value.isProper items = true →
        Value.everyItem Value.isNoNaN items = true →
          Value.sameItems items items = true
  | [], _, _ => by
      rw [Value.sameItems]
  | a :: as, hProper, hNumbers => by
      rw [Value.everyItem, Bool.and_eq_true]
        at hProper hNumbers
      rw [Value.sameItems, Bool.and_eq_true]
      exact
        ⟨Value.same_self a hProper.1 hNumbers.1,
          Value.sameItems_self as hProper.2 hNumbers.2⟩

/-
  An entry is compared with the one that is found under its
  name, which is itself.
-/
theorem Value.same_self_of_mem :
    (entries : List (String × Value)) →
      Value.everyEntry Value.isProper entries = true →
        Value.everyEntry Value.isNoNaN entries = true →
          ∀ entry ∈ entries, entry.2.same entry.2 = true
  | [], _, _, entry, hEntry => by
      cases hEntry
  | (name, a) :: rest, hProper, hNumbers, entry, hEntry => by
      rw [Value.everyEntry, Bool.and_eq_true]
        at hProper hNumbers
      rcases List.mem_cons.mp hEntry with rfl | hRest
      · exact Value.same_self a hProper.1 hNumbers.1
      · exact
          Value.same_self_of_mem rest hProper.2 hNumbers.2
            entry hRest

end

end MapStyle
