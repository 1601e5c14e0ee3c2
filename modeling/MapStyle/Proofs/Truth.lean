import MapStyle.Expression.Build

/-
  The truth of conditions. Every condition that is no `all`
  and no `any` is an atom, whose truth is given; a filter that
  is absent holds.

  Key definitions include:
    * `Expression.holds`
    * `Expression.holdsOptional`
    * `Expression.holdsArguments`

  Main statements:
    * `Expression.holds_merge`
    * `Expression.holds_andOptional`
    * `Expression.holds_condition?`
-/

namespace MapStyle

namespace Expression

------------------------------------------------------------
-- Truth
------------------------------------------------------------

mutual

/- Whether a condition holds, by the truth of its atoms. -/
def holds (truth : Value → Bool) : Expression → Bool
  | .pass operand => truth (.expr (.pass operand))
  | .node operator operands =>
      if operator = "all" then
        holdsAll truth operands
      else if operator = "any" then
        holdsAny truth operands
      else
        truth (.expr (.node operator operands))

/- An operand that is no expression is an atom. -/
def holdsOperand (truth : Value → Bool) : Value → Bool
  | .expr e => holds truth e
  | v => truth v

/- Whether all operands hold. -/
def holdsAll (truth : Value → Bool) : List Value → Bool
  | [] => true
  | v :: rest => holdsOperand truth v && holdsAll truth rest

/- Whether some operand holds. -/
def holdsAny (truth : Value → Bool) : List Value → Bool
  | [] => false
  | v :: rest => holdsOperand truth v || holdsAny truth rest

end

/- A condition that is absent holds. -/
def holdsOptional
    (truth : Value → Bool) : Option Expression → Bool
  | none => true
  | some e => holds truth e

/-
  The truth of arguments as a condition: there may be none,
  one argument stands for itself, and of several one has to
  hold.
-/
def holdsArguments
    (truth : Value → Bool) : List Value → Bool
  | [] => true
  | [v] => holds truth v.toExpression
  | args => holdsAny truth args

variable (truth : Value → Bool)

/- The value of a field is an atom. -/
@[simp] theorem holds_get (field : String) :
    (get field).holds truth = truth (.expr (get field)) := by
  simp [get, holds]

theorem holdsAll_append
    (first second : List Value) :
    holdsAll truth (first ++ second) =
      (holdsAll truth first && holdsAll truth second) := by
  induction first with
  | nil => rfl
  | cons v rest ih =>
      rw [List.cons_append, holdsAll, ih, holdsAll,
        Bool.and_assoc]

theorem holdsAny_append
    (first second : List Value) :
    holdsAny truth (first ++ second) =
      (holdsAny truth first || holdsAny truth second) := by
  induction first with
  | nil => rfl
  | cons v rest ih =>
      rw [List.cons_append, holdsAny, ih, holdsAny,
        Bool.or_assoc]

end Expression

------------------------------------------------------------
-- Combinations
------------------------------------------------------------

namespace Combinator

/- The truth of a combination of two conditions. -/
def join : Combinator → Bool → Bool → Bool
  | .all, a, b => a && b
  | .any, a, b => a || b

/- The truth of a combination of operands. -/
def joinOperands
    (truth : Value → Bool) : Combinator → List Value → Bool
  | .all, operands => Expression.holdsAll truth operands
  | .any, operands => Expression.holdsAny truth operands

variable (truth : Value → Bool)

/- A node of a combinator joins the truth of its operands. -/
theorem holds_node
    (op : Combinator)
    (operands : List Value) :
    Expression.holds truth (.node op.operator operands) =
      joinOperands truth op operands := by
  cases op with
  | all => simp [operator, Expression.holds, joinOperands]
  | any => simp [operator, Expression.holds, joinOperands]

/- Operands may be joined in two parts. -/
theorem joinOperands_append
    (op : Combinator)
    (first second : List Value) :
    joinOperands truth op (first ++ second) =
      op.join (joinOperands truth op first)
        (joinOperands truth op second) := by
  cases op with
  | all => exact Expression.holdsAll_append truth first second
  | any => exact Expression.holdsAny_append truth first second

theorem joinOperands_cons
    (op : Combinator)
    (v : Value)
    (rest : List Value) :
    joinOperands truth op (v :: rest) =
      op.join (Expression.holdsOperand truth v)
        (joinOperands truth op rest) := by
  cases op with
  | all => rfl
  | any => rfl

theorem joinOperands_singleton
    (op : Combinator)
    (e : Expression) :
    joinOperands truth op [.expr e] =
      Expression.holds truth e := by
  cases op with
  | all =>
      simp [joinOperands, Expression.holdsAll,
        Expression.holdsOperand]
  | any =>
      simp [joinOperands, Expression.holdsAny,
        Expression.holdsOperand]

end Combinator

namespace Expression

variable (truth : Value → Bool)

/-
  The operands that are taken over have the same truth
  together as the expression had.
-/
theorem holds_of_combined?
    {op : Combinator}
    {e : Expression}
    {operands : List Value}
    (h : e.combined? op = some operands) :
    e.holds truth = op.joinOperands truth operands := by
  cases e with
  | pass operand => cases h
  | node operator found =>
      rw [combined?, Option.ite_none_right_eq_some] at h
      rcases h with ⟨hOperator, hFound⟩
      rw [hOperator, Combinator.holds_node,
        Option.some.inj hFound]

/-
  However two conditions are merged, none of their operands
  gets lost and none counts twice.
-/
theorem holds_merge
    (op : Combinator)
    (a b : Expression) :
    (merge op a b).holds truth =
      op.join (a.holds truth) (b.holds truth) := by
  unfold merge
  split
  · next operands hLeft =>
      rw [Combinator.holds_node,
        Combinator.joinOperands_append,
        Combinator.joinOperands_singleton,
        holds_of_combined? truth hLeft]
  · split
    · next operands hRight =>
        rw [Combinator.holds_node,
          Combinator.joinOperands_cons,
          holds_of_combined? truth hRight, holdsOperand]
    · rw [Combinator.holds_node,
        Combinator.joinOperands_cons,
        Combinator.joinOperands_singleton, holdsOperand]

/- No condition is there only if neither side is. -/
theorem andOptional_eq_none_iff
    {a b : Option Expression} :
    andOptional a b = none ↔ a = none ∧ b = none := by
  cases a with
  | none => exact ⟨fun h => ⟨rfl, h⟩, fun h => h.2⟩
  | some e =>
      constructor
      · intro h
        cases h
      · rintro ⟨h, _⟩
        cases h

/- Arguments are no condition only if there are none. -/
theorem condition?_eq_none_iff
    {args : List Value} :
    condition? args = none ↔ args = [] := by
  rcases args with _ | ⟨first, _ | ⟨second, rest⟩⟩
  · exact iff_of_true rfl rfl
  · simp [condition?]
  · simp [condition?]

/- An absent condition is no restriction. -/
theorem holds_andOptional
    (a b : Option Expression) :
    holdsOptional truth (andOptional a b) =
      (holdsOptional truth a && holdsOptional truth b) := by
  cases a with
  | none => rfl
  | some a =>
      cases b with
      | none => exact (Bool.and_true _).symm
      | some b => exact holds_merge truth .all a b

theorem holds_condition?
    (args : List Value) :
    holdsOptional truth (condition? args) =
      holdsArguments truth args := by
  rcases args with _ | ⟨first, _ | ⟨second, rest⟩⟩
  · rfl
  · rfl
  · exact Combinator.holds_node truth .any _

end Expression

end MapStyle
