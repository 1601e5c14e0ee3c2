import MapStyle.Expression.Build

/-
  Reading an expression back from its JSON tree. Operators,
  strings, lists and expressions inside of others all become
  strings and arrays, and nothing marks which is which: an
  array is an expression in the place of an operand and a list
  in a literal.

  Key definitions include:
    * `Value.isLiteral`
    * `Expression.isWellFormed`
    * `Json.literal?`
    * `Json.operand?`
    * `Expression.decode?`

  Main statements:
    * `Value.literal?_lower`
    * `Value.operand?_lower`
    * `Json.lower_of_operand?`
    * `Expression.decode?_encode`
-/

namespace MapStyle

------------------------------------------------------------
-- Well-formed expressions
------------------------------------------------------------

/- Whether a value is null, a truth value, integer or string. -/
def Value.isScalar : Value → Bool
  | .null => true
  | .bool _ => true
  | .int _ => true
  | .text _ => true
  | _ => false

mutual

/- Whether a value is a scalar or a list of literals. -/
def Value.isLiteral : Value → Bool
  | .list items => Value.areLiterals items
  | v => v.isScalar

/- Whether all of several values are literals. -/
def Value.areLiterals : List Value → Bool
  | [] => true
  | v :: rest => v.isLiteral && Value.areLiterals rest

end

/- Whether operands are just one list, of literals. -/
def Value.areListed : List Value → Bool
  | [.list items] => Value.areLiterals items
  | _ => false

mutual

/- Whether a value is a scalar or a well-formed expression. -/
def Value.isOperand : Value → Bool
  | .expr e => e.isWellFormed
  | v => v.isScalar

/-
  Whether an expression has an operator, and either a list of
  literals as its only operand, if the operator is that of
  literals, or scalars and well-formed expressions.
-/
def Expression.isWellFormed : Expression → Bool
  | .pass _ => false
  | .node operator operands =>
      if operator = "literal" then
        Value.areListed operands
      else
        Value.areOperands operands

/- Whether all of several values may be operands. -/
def Value.areOperands : List Value → Bool
  | [] => true
  | v :: rest => v.isOperand && Value.areOperands rest

end

------------------------------------------------------------
-- Decoding
------------------------------------------------------------

namespace Json

/- The scalar that is lowered to a tree. -/
def scalar? : Json → Option Value
  | .null => some .null
  | .bool b => some (.bool b)
  | .number (.int n) => some (.int n)
  | .text s => some (.text s)
  | _ => none

/- A first answer with further ones, if all have been found. -/
def together? : Option Value → Option (List Value) →
    Option (List Value)
  | some v, some vs => some (v :: vs)
  | _, _ => none

/- All items are decoded, or the list is not. -/
theorem together?_eq_some_iff
    {first : Option Value}
    {others : Option (List Value)}
    {values : List Value} :
    together? first others = some values ↔
      ∃ v vs,
        first = some v ∧ others = some vs ∧ values = v :: vs := by
  cases first with
  | none => simp [together?]
  | some v =>
      cases others with
      | none => simp [together?]
      | some vs => simp [together?, eq_comm]

mutual

/- The literal that is lowered to a tree; arrays are lists. -/
def literal? : Json → Option Value
  | .array items => (literals? items).map .list
  | json => scalar? json

/- The literals that are lowered to trees. -/
def literals? : List Json → Option (List Value)
  | [] => some []
  | json :: rest =>
      together? (literal? json) (literals? rest)

end

/- The one list that is lowered to trees. -/
def listed? : List Json → Option (List Value)
  | [.array items] =>
      (literals? items).map fun values => [.list values]
  | _ => none

mutual

/- The operand that is lowered to a tree; arrays are expressions. -/
def operand? : Json → Option Value
  | .array (.text operator :: operands) =>
      (if operator = "literal" then listed? operands
        else operands? operands).map fun values =>
          .expr (.node operator values)
  | json => scalar? json

/- The operands that are lowered to trees. -/
def operands? : List Json → Option (List Value)
  | [] => some []
  | json :: rest =>
      together? (operand? json) (operands? rest)

end

end Json

/- The expression that is encoded as a tree. -/
def Expression.decode? (json : Json) : Option Expression :=
  match json.operand? with
  | some (.expr e) => some e
  | _ => none

------------------------------------------------------------
-- What is lowered is decoded
------------------------------------------------------------

namespace Value

variable {v : Value}

/- Scalars are the same anywhere. -/
theorem isLiteral_of_isScalar
    (h : v.isScalar = true) :
    v.isLiteral = true := by
  cases v with
  | list items => cases h
  | _ => exact h

theorem isOperand_of_isScalar
    (h : v.isScalar = true) :
    v.isOperand = true := by
  cases v with
  | expr e => cases h
  | _ => exact h

/- Operands are no mappings, so their names stay as they are. -/
theorem operandForm_of_isOperand
    (h : v.isOperand = true)
    (json : Json) :
    v.operandForm json = json := by
  cases v with
  | map entries => cases h
  | _ => rfl

mutual

/-
  Literals are read back as they were, by recursion on the
  value.
-/
theorem literal?_lower :
    (v : Value) →
      v.isLiteral = true → v.lower.literal? = some v
  | .list items, h => by
      rw [lower, Json.literal?, literals?_lowerItems items h]
      rfl
  | .null, _ => rfl
  | .bool _, _ => rfl
  | .int _, _ => rfl
  | .text _, _ => rfl
  | .float _, h => by cases h
  | .map _, h => by cases h
  | .range _, h => by cases h
  | .color _, h => by cases h
  | .expr _, h => by cases h

theorem literals?_lowerItems :
    (items : List Value) →
      areLiterals items = true →
        Json.literals? (lowerItems items) = some items
  | [], _ => rfl
  | v :: rest, h => by
      rw [areLiterals, Bool.and_eq_true] at h
      rw [lowerItems, Json.literals?, literal?_lower v h.1,
        literals?_lowerItems rest h.2]
      rfl

end

/-
  The list of a `literal` node is read back as its single
  operand.
-/
theorem listed?_lowerOperands
    {operands : List Value}
    (h : areListed operands = true) :
    Json.listed? (lowerOperands operands) = some operands := by
  unfold areListed at h
  split at h
  · next items =>
      change (Json.literals? (lowerItems items)).map _ = _
      rw [literals?_lowerItems items h]
      rfl
  · cases h

end Value

mutual

/-
  Operands are read back as they were: an expression by its
  operator, a scalar by itself.
-/
theorem Value.operand?_lower :
    (v : Value) →
      v.isOperand = true → v.lower.operand? = some v
  | .expr e, h => by
      rw [Value.lower]
      exact e.operand?_encode h
  | .null, _ => rfl
  | .bool _, _ => rfl
  | .int _, _ => rfl
  | .text _, _ => rfl
  | .float _, h => by cases h
  | .list _, h => by cases h
  | .map _, h => by cases h
  | .range _, h => by cases h
  | .color _, h => by cases h

theorem Expression.operand?_encode :
    (e : Expression) →
      e.isWellFormed = true → e.encode.operand? = some (.expr e)
  | .pass _, h => by cases h
  | .node operator operands, h => by
      rw [Expression.isWellFormed] at h
      rw [Expression.encode, Json.operand?]
      split at h
      · next hLiteral =>
          rw [if_pos hLiteral, Value.listed?_lowerOperands h]
          rfl
      · next hOther =>
          rw [if_neg hOther,
            Value.operands?_lowerOperands operands h]
          rfl

theorem Value.operands?_lowerOperands :
    (operands : List Value) →
      Value.areOperands operands = true →
        Json.operands? (Value.lowerOperands operands) =
          some operands
  | [], _ => rfl
  | v :: rest, h => by
      rw [Value.areOperands, Bool.and_eq_true] at h
      rw [Value.lowerOperands, Json.operands?,
        Value.operandForm_of_isOperand h.1,
        v.operand?_lower h.1,
        Value.operands?_lowerOperands rest h.2]
      rfl

end

------------------------------------------------------------
-- What is decoded has been lowered
------------------------------------------------------------

namespace Json

variable {json : Json} {v : Value}

/- What is read as a scalar is written as it stood there. -/
theorem lower_of_scalar?
    (h : json.scalar? = some v) :
    v.isScalar = true ∧ v.lower = json := by
  unfold scalar? at h
  split at h
  · cases h
    exact ⟨rfl, rfl⟩
  · cases h
    exact ⟨rfl, rfl⟩
  · cases h
    exact ⟨rfl, rfl⟩
  · cases h
    exact ⟨rfl, rfl⟩
  · cases h

theorem literal_of_scalar?
    (h : json.scalar? = some v) :
    v.isLiteral = true ∧ v.lower = json :=
  let hScalar := lower_of_scalar? h
  ⟨Value.isLiteral_of_isScalar hScalar.1, hScalar.2⟩

theorem operand_of_scalar?
    (h : json.scalar? = some v) :
    v.isOperand = true ∧ v.lower = json :=
  let hScalar := lower_of_scalar? h
  ⟨Value.isOperand_of_isScalar hScalar.1, hScalar.2⟩

mutual

/-
  The other way: what is read as a literal is written as it
  stood there.
-/
theorem lower_of_literal? :
    (json : Json) →
      {v : Value} →
        json.literal? = some v →
          v.isLiteral = true ∧ v.lower = json
  | .array items, v, h => by
      rw [literal?, Option.map_eq_some_iff] at h
      rcases h with ⟨values, hItems, rfl⟩
      rcases lowerItems_of_literals? items hItems with
        ⟨hLiterals, rfl⟩
      exact ⟨hLiterals, rfl⟩
  | .null, _, h => literal_of_scalar? h
  | .bool _, _, h => literal_of_scalar? h
  | .number _, _, h => literal_of_scalar? h
  | .text _, _, h => literal_of_scalar? h
  | .object _, _, h => literal_of_scalar? h

theorem lowerItems_of_literals? :
    (items : List Json) →
      {values : List Value} →
        literals? items = some values →
          Value.areLiterals values = true ∧
            Value.lowerItems values = items
  | [], values, h => by
      cases h
      exact ⟨rfl, rfl⟩
  | json :: rest, values, h => by
      rw [literals?, together?_eq_some_iff] at h
      rcases h with ⟨v, vs, hFirst, hRest, rfl⟩
      rcases lower_of_literal? json hFirst with ⟨hv, rfl⟩
      rcases lowerItems_of_literals? rest hRest with
        ⟨hvs, rfl⟩
      rw [Value.areLiterals, hv, hvs]
      exact ⟨rfl, rfl⟩

end

theorem lowerOperands_of_listed?
    {operands : List Json}
    {values : List Value}
    (h : listed? operands = some values) :
    Value.areListed values = true ∧
      Value.lowerOperands values = operands := by
  unfold listed? at h
  split at h
  · next items =>
      rw [Option.map_eq_some_iff] at h
      rcases h with ⟨literals, hItems, rfl⟩
      rcases lowerItems_of_literals? items hItems with
        ⟨hLiterals, rfl⟩
      exact ⟨hLiterals, rfl⟩
  · cases h

mutual

/- An array without an operator in front is no operand. -/
theorem lower_of_operand? :
    (json : Json) →
      {v : Value} →
        json.operand? = some v →
          v.isOperand = true ∧ v.lower = json
  | .array (.text operator :: operands), v, h => by
      rw [operand?, Option.map_eq_some_iff] at h
      rcases h with ⟨values, hValues, rfl⟩
      rw [Value.isOperand, Expression.isWellFormed]
      split at hValues
      · next hLiteral =>
          rcases lowerOperands_of_listed? hValues with
            ⟨hListed, rfl⟩
          rw [if_pos hLiteral]
          exact ⟨hListed, rfl⟩
      · next hOther =>
          rcases lowerOperands_of_operands? operands hValues with
            ⟨hAll, rfl⟩
          rw [if_neg hOther]
          exact ⟨hAll, rfl⟩
  | .array [], _, h => operand_of_scalar? h
  | .array (.null :: _), _, h => operand_of_scalar? h
  | .array (.bool _ :: _), _, h => operand_of_scalar? h
  | .array (.number _ :: _), _, h => operand_of_scalar? h
  | .array (.array _ :: _), _, h => operand_of_scalar? h
  | .array (.object _ :: _), _, h => operand_of_scalar? h
  | .null, _, h => operand_of_scalar? h
  | .bool _, _, h => operand_of_scalar? h
  | .number _, _, h => operand_of_scalar? h
  | .text _, _, h => operand_of_scalar? h
  | .object _, _, h => operand_of_scalar? h

/-
  All operands that are read are written as they stood
  there.
-/
theorem lowerOperands_of_operands? :
    (operands : List Json) →
      {values : List Value} →
        operands? operands = some values →
          Value.areOperands values = true ∧
            Value.lowerOperands values = operands
  | [], values, h => by
      cases h
      exact ⟨rfl, rfl⟩
  | json :: rest, values, h => by
      rw [operands?, together?_eq_some_iff] at h
      rcases h with ⟨v, vs, hFirst, hRest, rfl⟩
      rcases lower_of_operand? json hFirst with ⟨hv, rfl⟩
      rcases lowerOperands_of_operands? rest hRest with
        ⟨hvs, rfl⟩
      rw [Value.areOperands, Value.lowerOperands, hv, hvs,
        Value.operandForm_of_isOperand hv]
      exact ⟨rfl, rfl⟩

end

end Json

------------------------------------------------------------
-- Decoding expressions
------------------------------------------------------------

namespace Expression

/-
  Decoding inverts encoding on exactly the well-formed
  expressions.
-/
theorem decode?_eq_some_iff
    {json : Json}
    {e : Expression} :
    decode? json = some e ↔
      e.isWellFormed = true ∧ e.encode = json := by
  have hOperand :
      decode? json = some e ↔
        json.operand? = some (.expr e) := by
    unfold decode?
    split
    · next found hFound => simp [hFound]
    · next hNone =>
        constructor
        · intro h
          cases h
        · intro h
          exact absurd h (hNone e)
  rw [hOperand]
  constructor
  · intro h
    exact Json.lower_of_operand? json h
  · rintro ⟨hWell, rfl⟩
    exact e.operand?_encode hWell

/-
  Well-formed expressions are decoded, and nothing else is:
  each is read back from its own tree, every tree that is read
  is that of the expression it gives, and so no two of them
  share a tree.
-/
theorem decode?_encode :
    (∀ e : Expression,
        e.isWellFormed = true → decode? e.encode = some e) ∧
      (∀ (json : Json) (e : Expression),
        decode? json = some e →
          e.isWellFormed = true ∧ e.encode = json) ∧
      ∀ e f : Expression,
        e.isWellFormed = true →
          f.isWellFormed = true → e ≠ f →
            e.encode ≠ f.encode := by
  have hDecode :
      ∀ e : Expression,
        e.isWellFormed = true → decode? e.encode = some e :=
    fun e hWell => decode?_eq_some_iff.mpr ⟨hWell, rfl⟩
  refine ⟨hDecode, fun json e => decode?_eq_some_iff.mp, ?_⟩
  intro e f he hf hNe hSame
  have hBoth := hDecode e he
  rw [hSame, hDecode f hf] at hBoth
  exact hNe (Option.some.inj hBoth).symm

/-
  A condition on the kind of a feature, which may be one of
  two, or a list that looks like an expression.
-/
def lookalike : Expression :=
  .node "all"
    [.expr
        (.node "in"
          [.expr (.get "kind"),
            .expr
              (.literal
                [.text "get", .list [.text "literal", .null]])]),
      .expr (.node "==" [.expr (.get "literal"), .int (-3)]),
      .bool true]

/- The same with an expression in place of the list. -/
def looked : Expression :=
  .node "all"
    [.expr
        (.node "in"
          [.expr (.get "kind"),
            .expr (.node "get" [.text "literal", .null])]),
      .expr (.node "==" [.expr (.get "literal"), .int (-3)]),
      .bool true]

theorem decode?_encode_lookalike :
    decode? lookalike.encode = some lookalike ∧
      decode? looked.encode = some looked ∧
      lookalike.encode ≠ looked.encode := by
  have hLookalike : lookalike.isWellFormed = true := by
    decide
  have hLooked : looked.isWellFormed = true := by
    decide
  have hNe : lookalike ≠ looked := by
    intro hSame
    simp [lookalike, looked, literal] at hSame
  exact
    ⟨decode?_encode.1 lookalike hLookalike,
      decode?_encode.1 looked hLooked,
      decode?_encode.2.2 lookalike looked hLookalike hLooked
        hNe⟩

end Expression

end MapStyle
