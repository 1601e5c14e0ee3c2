import MapStyle.Evaluation.Term
import MapStyle.Program.Reader
import MapStyle.Proofs.StructuralEquality

/-
  What becomes of an expression that stands inside of an
  operand, directly or in lists and mappings. Operators look
  at the operand itself only: equality of lists or mappings,
  and the negation of one, are computed although an expression
  inside of them is left to each feature. All other operators
  give expressions, or fail.

  Key definitions include:
    * `Value.HoldsExpression`

  Main statements:
    * `BinaryOp.apply_of_holdsExpression`
    * `UnaryOp.apply_of_holdsExpression`
    * `Value.HoldsExpression.stays_iff`
-/

namespace MapStyle

namespace Value

------------------------------------------------------------
-- Expressions inside of values
------------------------------------------------------------

/- A value is an expression, or has one inside of it. -/
def HoldsExpression (v : Value) : Prop :=
  v.every (fun w => !w.isExpression) = false

instance (v : Value) : Decidable v.HoldsExpression := by
  unfold HoldsExpression
  infer_instance

/- Whether a value is a list or a mapping. -/
def isContainer : Value → Bool
  | .list _ => true
  | .map _ => true
  | _ => false

variable {v : Value}

/- Only containers have an expression inside of them. -/
theorem HoldsExpression.isContainer
    (h : v.HoldsExpression)
    (hPlain : v.isExpression = false) :
    v.isContainer = true := by
  cases v with
  | list items => rfl
  | map entries => rfl
  | expr e => cases hPlain
  | _ => cases h

end Value

------------------------------------------------------------
-- Operators between values
------------------------------------------------------------

namespace BinaryOp

variable {op : BinaryOp}
variable {a b : Value}

/- Containers can only be equal or not. -/
theorem fold?_of_isContainer
    (hLogical : op.isLogical = false)
    (ha : a.isExpression = false)
    (hb : b.isExpression = false)
    (h : a.isContainer = true ∨ b.isContainer = true) :
    fold? a op b = .ok (foldOthers a op b) := by
  unfold fold?
  rw [hLogical, ha, hb]
  rcases h with hContainer | hContainer
  · cases a with
    | list items => rfl
    | map entries => rfl
    | _ => cases hContainer
  · cases b with
    | list items => cases a <;> rfl
    | map entries => cases a <;> rfl
    | _ => cases hContainer

/- An expression is left to be evaluated for each feature. -/
theorem fold?_of_isExpression
    (h : a.isExpression = true ∨ b.isExpression = true) :
    fold? a op b = .ok none := by
  unfold fold?
  apply if_pos
  rcases h with h | h <;> simp [h]

theorem fold?_of_isLogical
    (h : op.isLogical = true) :
    fold? a op b = .ok none := by
  unfold fold?
  apply if_pos
  rw [h, Bool.true_or, Bool.true_or]

/- What is not computed is an expression of both operands. -/
theorem apply_of_fold?_eq_none
    (h : fold? a op b = .ok none) :
    op.apply a b = .ok (.expr (expression a op b)) := by
  unfold apply
  rw [h]
  rfl

/-
  Whether an operator gives an expression where an operand has
  one inside of it: one of the operands is an expression, or
  they are not compared for equality.
-/
def Keeps (op : BinaryOp) (a b : Value) : Prop :=
  a.isExpression = true ∨
    b.isExpression = true ∨ (op ≠ .eq ∧ op ≠ .ne)

instance (op : BinaryOp) (a b : Value) :
    Decidable (op.Keeps a b) := by
  unfold Keeps
  infer_instance

theorem apply_of_holdsExpression
    (h : a.HoldsExpression ∨ b.HoldsExpression) :
    op.apply a b =
      .ok
        (if op.Keeps a b then
          .expr (expression a op b)
        else
          .bool (a.same b == decide (op = .eq))) := by
  by_cases hExpr : a.isExpression = true ∨ b.isExpression = true
  · have hKeeps : op.Keeps a b := by
      rcases hExpr with hLeft | hRight
      · exact Or.inl hLeft
      · exact Or.inr (Or.inl hRight)
    rw [if_pos hKeeps]
    exact apply_of_fold?_eq_none (fold?_of_isExpression hExpr)
  · rw [not_or, Bool.not_eq_true, Bool.not_eq_true] at hExpr
    rcases hExpr with ⟨ha, hb⟩
    have hContainer :
        a.isContainer = true ∨ b.isContainer = true := by
      rcases h with hLeft | hRight
      · exact Or.inl (hLeft.isContainer ha)
      · exact Or.inr (hRight.isContainer hb)
    have hKeeps : op.Keeps a b ↔ op ≠ .eq ∧ op ≠ .ne := by
      unfold Keeps
      simp [ha, hb]
    cases hLogical : op.isLogical with
    | true =>
        have hOther : op ≠ .eq ∧ op ≠ .ne := by
          constructor <;> rintro rfl <;> cases hLogical
        rw [if_pos (hKeeps.mpr hOther)]
        exact
          apply_of_fold?_eq_none (fold?_of_isLogical hLogical)
    | false =>
        have hFold :=
          fold?_of_isContainer hLogical ha hb hContainer
        by_cases hOther : op ≠ .eq ∧ op ≠ .ne
        · rw [if_pos (hKeeps.mpr hOther)]
          apply apply_of_fold?_eq_none
          rw [hFold]
          cases op with
          | eq => exact absurd rfl hOther.1
          | ne => exact absurd rfl hOther.2
          | _ => rfl
        · rw [if_neg (fun hIf => hOther (hKeeps.mp hIf))]
          unfold apply
          rw [hFold]
          cases op with
          | eq =>
              rw [decide_eq_true rfl, beq_true]
              rfl
          | ne =>
              rw [decide_eq_false (by decide), beq_false]
              rfl
          | _ => exact absurd ⟨by decide, by decide⟩ hOther

end BinaryOp

------------------------------------------------------------
-- Operators in front of values
------------------------------------------------------------

/- Containers count as true, and have no negative. -/
theorem UnaryOp.apply_of_holdsExpression
    {op : UnaryOp}
    {a : Value}
    (h : a.HoldsExpression)
    (ha : a.isExpression = false) :
    op.apply a =
      match op with
      | .neg => .error (.argument (.notNegatable a))
      | .not => .ok (.bool false) := by
  have hContainer := h.isContainer ha
  cases a with
  | list items => cases op <;> rfl
  | map entries => cases op <;> rfl
  | _ => cases hContainer

------------------------------------------------------------
-- What stays an expression
------------------------------------------------------------

/-
  When operators leave to each feature what has an expression
  inside of it. Between values they always give a result; it
  is the expression of both operands, unless operands that are
  no expressions themselves are compared for equality, which
  gives a truth value. In front of a value the result is an
  expression exactly if the operand is one itself; any other
  has no negative, and its negation is false.
-/
theorem Value.HoldsExpression.stays_iff
    {a : Value}
    (h : a.HoldsExpression) :
    (∀ (op : BinaryOp) (left right : Value),
      left = a ∨ right = a →
        ∃ v,
          op.apply left right = .ok v ∧
            (v.isExpression = true ↔ op.Keeps left right) ∧
              (v.isExpression = true →
                v = .expr (op.expression left right)) ∧
                (v.isExpression = false →
                  v =
                    .bool
                      (left.same right == decide (op = .eq)))) ∧
      ∀ op : UnaryOp,
        ((∃ e, op.apply a = .error e) ↔
            op = .neg ∧ a.isExpression = false) ∧
          ∀ v,
            op.apply a = .ok v →
              (v.isExpression = true ↔ a.isExpression = true) ∧
                (v.isExpression = false → v = .bool false) := by
  constructor
  · intro op left right hSide
    have hHolds :
        left.HoldsExpression ∨ right.HoldsExpression := by
      rcases hSide with rfl | rfl
      · exact Or.inl h
      · exact Or.inr h
    refine ⟨_, BinaryOp.apply_of_holdsExpression hHolds, ?_⟩
    by_cases hKeeps : op.Keeps left right
    · simp [hKeeps, isExpression]
    · simp [hKeeps, isExpression]
  · intro op
    cases ha : a.isExpression with
    | true =>
        cases a with
        | expr e => cases op <;> simp [UnaryOp.apply, isExpression]
        | _ => cases ha
    | false =>
        rw [UnaryOp.apply_of_holdsExpression h ha]
        cases op with
        | neg => simp
        | not =>
            refine ⟨by simp, ?_⟩
            intro v hv
            cases hv
            simp [isExpression]

/- A mapping with a field in a list in it. -/
def nestedField : Value :=
  .map [("kinds", .list [.expr (.get "kind")])]

/- It is ordered for each feature, and cannot be negated. -/
theorem Value.HoldsExpression.stays_iff_nestedField :
    nestedField.HoldsExpression ∧
      (∃ v,
        BinaryOp.apply (.int 1) .lt nestedField = .ok v ∧
          v.isExpression = true) ∧
      ∃ e, UnaryOp.apply .neg nestedField = .error e := by
  have hHolds : nestedField.HoldsExpression := by
    decide
  rcases Value.HoldsExpression.stays_iff hHolds with
    ⟨hBinary, hUnary⟩
  rcases hBinary .lt (.int 1) nestedField (Or.inr rfl) with
    ⟨v, hv, hKeeps, _⟩
  refine ⟨hHolds, ⟨v, hv, hKeeps.mpr (by decide)⟩, ?_⟩
  exact (hUnary .neg).1.mpr ⟨rfl, rfl⟩

/- A list with a field in it, compared with a known list. -/
def comparedLists : Term :=
  .binary (.list [.ident "kind"]) .eq
    (.list [.literal (.text "river")])

/-
  The field is never read: the comparison is false before any
  feature is looked at.
-/
theorem comparedLists_computed :
    Term.read "[kind] == [:river]" = .ok comparedLists ∧
      (Value.list [.expr (.get "kind")]).HoldsExpression ∧
      BinaryOp.apply (.list [.expr (.get "kind")]) .eq
          (.list [.text "river"]) =
        .ok (.bool false) ∧
      (Scope.evaluate ⟨.empty, none⟩ comparedLists).outcome =
        .ok (.bool false) := by
  have hRead :
      Term.read "[kind] == [:river]" = .ok comparedLists := by
    cbv
  have hHolds :
      (Value.list [.expr (.get "kind")]).HoldsExpression := by
    decide
  have hSame :
      (Value.list [.expr (.get "kind")]).same
          (.list [.text "river"]) =
        false := by
    simp [Value.same, Value.sameItems]
  have hApply :
      BinaryOp.apply (.list [.expr (.get "kind")]) .eq
          (.list [.text "river"]) =
        .ok (.bool false) := by
    rw [BinaryOp.apply_of_holdsExpression (Or.inl hHolds),
      if_neg (by decide), hSame]
    rfl
  exact ⟨hRead, hHolds, hApply, hApply⟩

end MapStyle
