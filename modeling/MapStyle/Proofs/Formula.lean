import MapStyle.Evaluation.Term
import MapStyle.Proofs.Truth

/-
  Formulas as they are written, and the truth of the
  expressions that they evaluate to. Every expression that is
  neither a combination nor a negation is an atom, whose truth
  is given.

  Key definitions include:
    * `Expression.IsAtom`
    * `Expression.verdict`
    * `Formula`
    * `Formula.term`
    * `Formula.holds`

  Main statements:
    * `Expression.verdict_merge`
    * `Formula.evaluate_term`
-/

namespace MapStyle

------------------------------------------------------------
-- The truth of expressions
------------------------------------------------------------

namespace Expression

/- An expression that is no combination and no negation. -/
def IsAtom (e : Expression) : Prop :=
  e.operator? ∉ [some "all", some "any", some "!"]

instance (e : Expression) : Decidable e.IsAtom := by
  unfold IsAtom
  infer_instance

mutual

/-
  Whether an expression is true, by the truth of its atoms. A
  negation is true if its operand is not.
-/
def verdict (truth : Expression → Bool) : Expression → Bool
  | .pass v => truth (.pass v)
  | .node operator operands =>
      if operator = "all" then
        verdictAll truth operands
      else if operator = "any" then
        verdictAny truth operands
      else if operator = "!" then
        !verdictAny truth operands
      else
        truth (.node operator operands)

/- An operand that is no expression stands for itself. -/
def verdictOperand (truth : Expression → Bool) : Value → Bool
  | .expr e => verdict truth e
  | v => truth (.pass v)

/- Whether all operands are true. -/
def verdictAll (truth : Expression → Bool) : List Value → Bool
  | [] => true
  | v :: rest =>
      verdictOperand truth v && verdictAll truth rest

/- Whether some operand is true. -/
def verdictAny (truth : Expression → Bool) : List Value → Bool
  | [] => false
  | v :: rest =>
      verdictOperand truth v || verdictAny truth rest

end

variable (truth : Expression → Bool)

/- The truth of an atom is the one that is given. -/
theorem verdict_atom
    {e : Expression}
    (h : e.IsAtom) : e.verdict truth = truth e := by
  cases e with
  | pass v => rw [verdict]
  | node operator operands =>
      simp only [IsAtom, operator?, List.mem_cons,
        Option.some.injEq, List.not_mem_nil, or_false,
        not_or] at h
      rcases h with ⟨hAll, hAny, hNot⟩
      rw [verdict, if_neg hAll, if_neg hAny, if_neg hNot]

/- A negation is true exactly if its operand is not. -/
theorem verdict_negate (e : Expression) :
    e.negate.verdict truth = !e.verdict truth := by
  simp [negate, verdict, verdictAny, verdictOperand]

mutual

/-
  The verdict agrees with the truth of conditions if negations
  count as atoms that have their verdicts.
-/
theorem holds_verdictOperand :
    (e : Expression) →
      e.holds (verdictOperand truth) = e.verdict truth
  | .pass v => by
      rw [holds, verdictOperand]
  | .node operator operands => by
      rw [holds]
      split
      · next hAll =>
          rw [verdict, if_pos hAll]
          exact holdsAll_verdictOperand operands
      · next hAll =>
          split
          · next hAny =>
              rw [verdict, if_neg hAll, if_pos hAny]
              exact holdsAny_verdictOperand operands
          · rw [verdictOperand]

theorem holdsOperand_verdictOperand :
    (v : Value) →
      holdsOperand (verdictOperand truth) v =
        verdictOperand truth v
  | .expr e => by
      rw [holdsOperand, verdictOperand]
      exact holds_verdictOperand e
  | .null | .bool _ | .int _ | .float _ | .text _ | .list _
  | .map _ | .range _ | .color _ => by
      rw [holdsOperand]
      simp

theorem holdsAll_verdictOperand :
    (operands : List Value) →
      holdsAll (verdictOperand truth) operands =
        verdictAll truth operands
  | [] => by
      rw [holdsAll, verdictAll]
  | v :: rest => by
      rw [holdsAll, verdictAll, holdsOperand_verdictOperand v,
        holdsAll_verdictOperand rest]

theorem holdsAny_verdictOperand :
    (operands : List Value) →
      holdsAny (verdictOperand truth) operands =
        verdictAny truth operands
  | [] => by
      rw [holdsAny, verdictAny]
  | v :: rest => by
      rw [holdsAny, verdictAny, holdsOperand_verdictOperand v,
        holdsAny_verdictOperand rest]

end

/-
  Merging does not change the truth, wherever operands are
  taken over.
-/
theorem verdict_merge
    (op : Combinator)
    (a b : Expression) :
    (merge op a b).verdict truth =
      op.join (a.verdict truth) (b.verdict truth) := by
  rw [← holds_verdictOperand, ← holds_verdictOperand,
    ← holds_verdictOperand]
  exact holds_merge _ op a b

end Expression

------------------------------------------------------------
-- Formulas
------------------------------------------------------------

/- The operator that combines two terms. -/
def Combinator.binary : Combinator → BinaryOp
  | .all => .and
  | .any => .or

/-
  A condition as it is written: atoms, negations, two
  conditions with an operator between them, and conditions in
  the brackets of `all` or `any`.
-/
inductive Formula
  | atom (term : Term)
  | negated (operand : Formula)
  | joined (op : Combinator) (left right : Formula)
  | listed (op : Combinator) (items : List Formula)

namespace Formula

mutual

/- The term of a formula. -/
def term : Formula → Term
  | .atom t => t
  | .negated f => .unary .not f.term
  | .joined op f g => .binary f.term op.binary g.term
  | .listed op items => .index (.ident op.operator) (terms items)

/- The terms of several formulas. -/
def terms : List Formula → List Term
  | [] => []
  | f :: rest => f.term :: terms rest

end

mutual

/- The terms that a formula is built from. -/
def atoms : Formula → List Term
  | .atom t => [t]
  | .negated f => f.atoms
  | .joined _ f g => f.atoms ++ g.atoms
  | .listed _ items => atomsOfAll items

/- The terms that several formulas are built from. -/
def atomsOfAll : List Formula → List Term
  | [] => []
  | f :: rest => f.atoms ++ atomsOfAll rest

end

mutual

/- Whether a formula is true, by the truth of its atoms. -/
def holds (truth : Term → Bool) : Formula → Bool
  | .atom t => truth t
  | .negated f => !f.holds truth
  | .joined op f g => op.join (f.holds truth) (g.holds truth)
  | .listed .all items => holdsAll truth items
  | .listed .any items => holdsAny truth items

/- Whether all formulas are true. -/
def holdsAll (truth : Term → Bool) : List Formula → Bool
  | [] => true
  | f :: rest => f.holds truth && holdsAll truth rest

/- Whether some formula is true. -/
def holdsAny (truth : Term → Bool) : List Formula → Bool
  | [] => false
  | f :: rest => f.holds truth || holdsAny truth rest

end

end Formula

------------------------------------------------------------
-- Evaluation
------------------------------------------------------------

namespace Scope

variable (scope : Scope)

/-
  Each connective of the language is evaluated to the one of
  expressions.
-/
theorem evaluate_negated
    {t : Term}
    {e : Expression}
    (h : (scope.evaluate t).outcome = .ok (.expr e)) :
    (scope.evaluate (.unary .not t)).outcome =
      .ok (.expr e.negate) := by
  rw [evaluate, Traced.outcome_bind h]
  rfl

theorem evaluate_joined
    (op : Combinator)
    {s t : Term}
    {a b : Expression}
    (hLeft : (scope.evaluate s).outcome = .ok (.expr a))
    (hRight : (scope.evaluate t).outcome = .ok (.expr b)) :
    (scope.evaluate (.binary s op.binary t)).outcome =
      .ok (.expr (Expression.merge op a b)) := by
  rw [evaluate, Traced.outcome_bind hLeft,
    Traced.outcome_bind hRight]
  cases op with
  | all => rfl
  | any => rfl

/- An index of `all` or `any` is a node with its items. -/
theorem evaluate_listed
    (op : Combinator)
    {items : List Term}
    {values : List Value}
    (h : (scope.evaluateAll items).outcome = .ok values) :
    (scope.evaluate
      (.index (.ident op.operator) items)).outcome =
        .ok (.expr (.node op.operator values)) := by
  rw [evaluate, Traced.outcome_bind h]
  cases op with
  | all => rfl
  | any => rfl

end Scope

namespace Formula

/-
  An expression has the truth of a formula, whatever the truth
  of the expressions that stand for the atoms is.
-/
def StandsFor
    (value : Term → Expression)
    (e : Expression)
    (f : Formula) : Prop :=
  ∀ truth,
    e.verdict truth = f.holds fun t => truth (value t)

/- Values that stand for several formulas, one for each. -/
def StandForAll
    (value : Term → Expression) : List Value → List Formula → Prop
  | [], [] => True
  | .expr e :: values, f :: rest =>
      StandsFor value e f ∧ StandForAll value values rest
  | _, _ => False

variable {scope : Scope}
variable {value : Term → Expression}
variable {values : List Value}
variable {items : List Formula}

theorem StandForAll.verdictAll
    (h : StandForAll value values items)
    (truth : Expression → Bool) :
    Expression.verdictAll truth values =
      holdsAll (fun t => truth (value t)) items := by
  fun_induction StandForAll value values items with
  | case1 => rfl
  | case2 e values f rest ih =>
      rcases h with ⟨hFirst, hRest⟩
      rw [Expression.verdictAll, Expression.verdictOperand,
        hFirst truth, ih hRest, holdsAll]
  | case3 => cases h

theorem StandForAll.verdictAny
    (h : StandForAll value values items)
    (truth : Expression → Bool) :
    Expression.verdictAny truth values =
      holdsAny (fun t => truth (value t)) items := by
  fun_induction StandForAll value values items with
  | case1 => rfl
  | case2 e values f rest ih =>
      rcases h with ⟨hFirst, hRest⟩
      rw [Expression.verdictAny, Expression.verdictOperand,
        hFirst truth, ih hRest, holdsAny]
  | case3 => cases h

/-
  A list of formulas has the truth that its connective gives
  to its items.
-/
theorem StandForAll.node
    (h : StandForAll value values items)
    (op : Combinator) :
    StandsFor value (.node op.operator values)
      (.listed op items) := by
  intro truth
  cases op with
  | all =>
      simp only [Combinator.operator, Expression.verdict,
        ↓reduceIte, holds]
      exact h.verdictAll truth
  | any =>
      simp only [Combinator.operator, Expression.verdict,
        String.reduceEq, ↓reduceIte, holds]
      exact h.verdictAny truth

mutual

/-
  The evaluation follows the formula: each way to build one
  has its own way to build the expression that stands for it.
-/
theorem exists_standsFor :
    (f : Formula) →
      (∀ t ∈ f.atoms,
        (scope.evaluate t).outcome = .ok (.expr (value t)) ∧
          (value t).IsAtom) →
      ∃ e,
        (scope.evaluate f.term).outcome = .ok (.expr e) ∧
          StandsFor value e f
  | .atom t, hAtoms => by
      rcases hAtoms t (by simp [atoms]) with ⟨hValue, hAtom⟩
      refine ⟨value t, ?_, ?_⟩
      · rw [term]
        exact hValue
      · intro truth
        rw [Expression.verdict_atom truth hAtom, holds]
  | .negated f, hAtoms => by
      rw [atoms] at hAtoms
      rcases exists_standsFor f hAtoms with ⟨e, hTerm, hStands⟩
      refine ⟨e.negate, ?_, ?_⟩
      · rw [term]
        exact scope.evaluate_negated hTerm
      · intro truth
        rw [Expression.verdict_negate, hStands truth, holds]
  | .joined op f g, hAtoms => by
      simp only [atoms, List.mem_append] at hAtoms
      rcases exists_standsFor f
          (fun t hMem => hAtoms t (Or.inl hMem)) with
        ⟨a, hLeftTerm, hLeft⟩
      rcases exists_standsFor g
          (fun t hMem => hAtoms t (Or.inr hMem)) with
        ⟨b, hRightTerm, hRight⟩
      refine ⟨Expression.merge op a b, ?_, ?_⟩
      · rw [term]
        exact scope.evaluate_joined op hLeftTerm hRightTerm
      · intro truth
        rw [Expression.verdict_merge, hLeft truth,
          hRight truth, holds]
  | .listed op items, hAtoms => by
      rw [atoms] at hAtoms
      rcases exists_standForAll items hAtoms with
        ⟨values, hTerms, hStand⟩
      refine ⟨.node op.operator values, ?_, hStand.node op⟩
      rw [term]
      exact scope.evaluate_listed op hTerms

/-
  Items are evaluated one by one, to operands that stand for
  them.
-/
theorem exists_standForAll :
    (items : List Formula) →
      (∀ t ∈ atomsOfAll items,
        (scope.evaluate t).outcome = .ok (.expr (value t)) ∧
          (value t).IsAtom) →
      ∃ values,
        (scope.evaluateAll (terms items)).outcome =
            .ok values ∧
          StandForAll value values items
  | [], _ => by
      refine ⟨[], ?_, trivial⟩
      rw [terms, Scope.evaluateAll]
      rfl
  | f :: rest, hAtoms => by
      simp only [atomsOfAll, List.mem_append] at hAtoms
      rcases exists_standsFor f
          (fun t hMem => hAtoms t (Or.inl hMem)) with
        ⟨e, hTerm, hFirst⟩
      rcases exists_standForAll rest
          (fun t hMem => hAtoms t (Or.inr hMem)) with
        ⟨values, hTerms, hRest⟩
      refine ⟨.expr e :: values, ?_, hFirst, hRest⟩
      rw [terms, Scope.evaluateAll, Traced.outcome_bind hTerm,
        Traced.outcome_bind hTerms]
      rfl

end

/-
  A formula evaluates if its atoms do, and the expression is
  true whenever the formula is: no flattening of combinations
  changes what was written.
-/
theorem evaluate_term
    {scope : Scope}
    {value : Term → Expression}
    {f : Formula}
    (hAtoms :
      ∀ t ∈ f.atoms,
        (scope.evaluate t).outcome = .ok (.expr (value t)) ∧
          (value t).IsAtom) :
    ∃ e,
      (scope.evaluate f.term).outcome = .ok (.expr e) ∧
        ∀ truth : Expression → Bool,
          e.verdict truth =
            f.holds fun t => truth (value t) :=
  exists_standsFor f hAtoms

/-
  Combinations inside of each other, two of them to the right
  of combinations of their own kind, and one under a negation.
-/
def mixed : Formula :=
  .joined .any
    (.negated
      (.joined .all
        (.joined .all (.atom (.ident "a")) (.atom (.ident "b")))
        (.listed .all [.atom (.ident "c")])))
    (.joined .any
      (.listed .any [])
      (.joined .any (.atom (.ident "d")) (.atom (.ident "a"))))

/- The field that a bare name reads. -/
def fieldOf : Term → Expression
  | .ident name => .get name
  | _ => default

theorem evaluate_term_mixed :
    (∀ t ∈ mixed.atoms,
      (Scope.evaluate ⟨.empty, none⟩ t).outcome =
          .ok (.expr (fieldOf t)) ∧
        (fieldOf t).IsAtom) ∧
      ∃ e,
        (Scope.evaluate ⟨.empty, none⟩ mixed.term).outcome =
          .ok (.expr e) ∧
          ∀ truth : Expression → Bool,
            e.verdict truth =
              (!((truth (.get "a") && truth (.get "b")) &&
                  (truth (.get "c") && true)) ||
                (false ||
                  (truth (.get "d") || truth (.get "a")))) := by
  have hAtoms :
      ∀ t ∈ mixed.atoms,
        (Scope.evaluate ⟨.empty, none⟩ t).outcome =
            .ok (.expr (fieldOf t)) ∧
          (fieldOf t).IsAtom := by
    intro t hMem
    simp only [mixed, atoms, atomsOfAll, List.cons_append,
      List.nil_append, List.append_nil, List.mem_cons,
      List.not_mem_nil, or_false] at hMem
    rcases hMem with rfl | rfl | rfl | rfl | rfl
    all_goals exact ⟨rfl, by decide⟩
  exact ⟨hAtoms, evaluate_term hAtoms⟩

end Formula

end MapStyle
