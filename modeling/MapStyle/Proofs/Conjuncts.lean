import MapStyle.Proofs.Truth

/-
  The conditions that a filter is made of, and filters that
  differ by nothing but some conditions that one of them
  carries in addition.

  Key definitions include:
    * `Expression.conjuncts`
    * `Expression.Carries`

  Main statements:
    * `Expression.conjuncts_andOptional`
    * `Expression.Carries.conjuncts_eq_iff`
-/

namespace MapStyle

namespace Expression

------------------------------------------------------------
-- Conjuncts
------------------------------------------------------------

mutual

/-
  The conditions that have to hold together for an expression
  to hold: those of all operands of an `all`, else itself.
-/
def conjunctsOf : Expression → List Value
  | .pass operand => [.expr (.pass operand)]
  | .node operator operands =>
      if operator = "all" then
        conjunctsOfAll operands
      else
        [.expr (.node operator operands)]

/- An operand that is no expression is a condition itself. -/
def conjunctsOfOperand : Value → List Value
  | .expr e => conjunctsOf e
  | v => [v]

/- The conditions of all operands, in order. -/
def conjunctsOfAll : List Value → List Value
  | [] => []
  | v :: rest => conjunctsOfOperand v ++ conjunctsOfAll rest

end

/- The conditions of a filter; there may be none. -/
def conjuncts : Option Expression → List Value
  | none => []
  | some e => conjunctsOf e

theorem conjunctsOfAll_append
    (first second : List Value) :
    conjunctsOfAll (first ++ second) =
      conjunctsOfAll first ++ conjunctsOfAll second := by
  induction first with
  | nil => rfl
  | cons v rest ih =>
      rw [List.cons_append, conjunctsOfAll, ih,
        conjunctsOfAll, List.append_assoc]

theorem conjunctsOfAll_singleton (e : Expression) :
    conjunctsOfAll [.expr e] = conjunctsOf e := by
  simp [conjunctsOfAll, conjunctsOfOperand]

theorem conjunctsOf_all (operands : List Value) :
    conjunctsOf (.node Combinator.all.operator operands) =
      conjunctsOfAll operands := by
  simp [Combinator.operator, conjunctsOf]

/-
  Operands that are taken over are the conjuncts that the
  expression had.
-/
theorem conjunctsOf_of_combined?
    {e : Expression}
    {operands : List Value}
    (h : e.combined? .all = some operands) :
    conjunctsOf e = conjunctsOfAll operands := by
  cases e with
  | pass operand => cases h
  | node operator found =>
      rw [combined?, Option.ite_none_right_eq_some] at h
      rcases h with ⟨hOperator, hFound⟩
      rw [hOperator, conjunctsOf_all, Option.some.inj hFound]

/- Merging puts the conditions of both sides in order. -/
theorem conjunctsOf_merge (a b : Expression) :
    conjunctsOf (merge .all a b) =
      conjunctsOf a ++ conjunctsOf b := by
  unfold merge
  split
  · next operands hLeft =>
      rw [conjunctsOf_all, conjunctsOfAll_append,
        conjunctsOfAll_singleton,
        conjunctsOf_of_combined? hLeft]
  · split
    · next operands hRight =>
        rw [conjunctsOf_all, conjunctsOfAll,
          conjunctsOfOperand, conjunctsOf_of_combined? hRight]
    · rw [conjunctsOf_all, conjunctsOfAll,
        conjunctsOfOperand, conjunctsOfAll_singleton]

/- The conditions of both, in order, however they are merged. -/
theorem conjuncts_andOptional
    (a b : Option Expression) :
    conjuncts (andOptional a b) =
      conjuncts a ++ conjuncts b := by
  cases a with
  | none => rfl
  | some a =>
      cases b with
      | none => exact (List.append_nil _).symm
      | some b => exact conjunctsOf_merge a b

theorem andOptional_none (a : Option Expression) :
    andOptional a none = a := by
  cases a with
  | none => rfl
  | some e => rfl

------------------------------------------------------------
-- Carried conditions
------------------------------------------------------------

/-
  A filter that carries some conditions in addition to those
  of another one. If there are none, the filters are the same.
-/
structure Carries
    (carried : List Expression)
    (filter plain : Option Expression) : Prop where
  eq_of_nil : carried = [] → filter = plain
  holds :
    ∀ truth,
      holdsOptional truth filter =
        (holdsOptional truth plain &&
          carried.all (Expression.holds truth))
  sublist : (conjuncts plain).Sublist (conjuncts filter)
  length :
    (conjuncts filter).length =
      (conjuncts plain).length
        + (carried.flatMap conjunctsOf).length

namespace Carries

variable {carried : List Expression}
variable {filter plain : Option Expression}

theorem refl (filter : Option Expression) :
    Carries [] filter filter where
  eq_of_nil := fun _ => rfl
  holds := fun _ => (Bool.and_true _).symm
  sublist := List.Sublist.refl _
  length := rfl

/- Both filters are narrowed by one condition. -/
theorem narrow
    (h : Carries carried filter plain)
    (condition : Option Expression) :
    Carries carried (andOptional condition filter)
      (andOptional condition plain) where
  eq_of_nil := by
    intro hNil
    rw [h.eq_of_nil hNil]
  holds := by
    intro truth
    rw [holds_andOptional, holds_andOptional, h.holds,
      Bool.and_assoc]
  sublist := by
    rw [conjuncts_andOptional, conjuncts_andOptional]
    exact List.Sublist.append_left h.sublist _
  length := by
    rw [conjuncts_andOptional, conjuncts_andOptional,
      List.length_append, List.length_append, h.length,
      Nat.add_assoc]

/- A condition is added behind both filters. -/
theorem extend
    (h : Carries carried filter plain)
    (condition : Option Expression) :
    Carries carried (andOptional filter condition)
      (andOptional plain condition) where
  eq_of_nil := by
    intro hNil
    rw [h.eq_of_nil hNil]
  holds := by
    intro truth
    rw [holds_andOptional, holds_andOptional, h.holds,
      Bool.and_right_comm]
  sublist := by
    rw [conjuncts_andOptional, conjuncts_andOptional]
    exact List.Sublist.append_right h.sublist _
  length := by
    rw [conjuncts_andOptional, conjuncts_andOptional,
      List.length_append, List.length_append, h.length,
      Nat.add_right_comm]

/- A condition is added to one filter only. -/
theorem take
    (h : Carries carried filter plain)
    (condition : Option Expression) :
    Carries (carried ++ condition.toList)
      (andOptional filter condition) plain := by
  cases condition with
  | none =>
      rw [andOptional_none, Option.toList_none,
        List.append_nil]
      exact h
  | some e =>
      refine ⟨?_, ?_, ?_, ?_⟩
      · intro hNil
        simp at hNil
      · intro truth
        rw [holds_andOptional, h.holds, List.all_append,
          Bool.and_assoc]
        simp [holdsOptional]
      · rw [conjuncts_andOptional]
        exact h.sublist.trans (List.sublist_append_left _ _)
      · rw [conjuncts_andOptional, List.length_append,
          h.length, List.flatMap_append, List.length_append,
          Nat.add_assoc]
        simp [conjuncts]

/-
  The filters have the same conditions exactly if the carried
  ones consist of no conditions at all.
-/
theorem conjuncts_eq_iff
    (h : Carries carried filter plain) :
    conjuncts filter = conjuncts plain ↔
      ∀ e ∈ carried, conjunctsOf e = [] := by
  rw [← List.flatMap_eq_nil_iff]
  constructor
  · intro hSame
    have hLength := h.length
    rw [hSame] at hLength
    exact List.length_eq_zero_iff.mp (by omega)
  · intro hNil
    have hLength := h.length
    rw [hNil] at hLength
    exact (h.sublist.eq_of_length hLength.symm).symm

end Carries

end Expression

end MapStyle
