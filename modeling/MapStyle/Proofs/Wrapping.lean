import MapStyle.Proofs.Bag
import MapStyle.Proofs.Spelling
import MapStyle.Proofs.StructuralEquality

/-
  Wrapping a value into an expression that stands for it, at
  some place inside of a larger value. The wrapped value is an
  operand, and the names of a mapping that is an operand are
  written with hyphens: so a mapping that was no operand
  before, and has other names, comes out changed.

  Key definitions include:
    * `Context`
    * `Context.fill`
    * `Context.isOperand`
    * `Context.isLost`

  Main statements:
    * `Context.loweredAs_fill_eq_iff`
    * `Value.loweredAs_eq_iff`
    * `Context.lower_fill_wrapped_iff`
-/

namespace MapStyle

------------------------------------------------------------
-- Contexts
------------------------------------------------------------

/-
  What is around a place in a value: nothing, or what is
  around it in an item of a list, a member of a mapping, an
  operand of an operator, or a wrapped value.
-/
inductive Context
  | here
  | item
    (before : List Value)
    (inner : Context)
    (after : List Value)
  | member
    (before : List (String × Value))
    (name : String)
    (inner : Context)
    (after : List (String × Value))
  | operand
    (operator : String)
    (before : List Value)
    (inner : Context)
    (after : List Value)
  | wrapped (inner : Context)

namespace Context

/- The larger value with a value at a place. -/
def fill : Context → Value → Value
  | here, v => v
  | item before inner after, v =>
      .list (before ++ inner.fill v :: after)
  | member before name inner after, v =>
      .map (before ++ (name, inner.fill v) :: after)
  | operand operator before inner after, v =>
      .expr (.node operator (before ++ inner.fill v :: after))
  | wrapped inner, v => .expr (.pass (inner.fill v))

/-
  Whether what stands at the place is an operand, if the
  larger value is one or not.
-/
def isOperandIn : Bool → Context → Bool
  | asOperand, here => asOperand
  | _, item _ inner _ => inner.isOperandIn false
  | _, member _ _ inner _ => inner.isOperandIn false
  | _, operand _ _ inner _ => inner.isOperandIn true
  | _, wrapped inner => inner.isOperandIn true

/- Whether a later member is written under the same name. -/
def isRepeated
    (name : String)
    (after : List (String × Value)) : Bool :=
  (after.map fun member => Spelling.hyphenated member.1).contains
    (Spelling.hyphenated name)

/-
  Whether the place is in a member of an operand that a later
  member replaces, as it is written under the same name.
-/
def isLostIn : Bool → Context → Bool
  | _, here => false
  | _, item _ inner _ => inner.isLostIn false
  | asOperand, member _ name inner after =>
      asOperand && isRepeated name after || inner.isLostIn false
  | _, operand _ _ inner _ => inner.isLostIn true
  | _, wrapped inner => inner.isLostIn true

/- Whether a value on its own has an operand at the place. -/
def isOperand (p : Context) : Bool :=
  p.isOperandIn false

/- Whether the place is lost in a value on its own. -/
def isLost (p : Context) : Bool :=
  p.isLostIn false

end Context

------------------------------------------------------------
-- Lowering around a place
------------------------------------------------------------

namespace Value

/- A lowered value, which may be an operand. -/
def loweredAs (asOperand : Bool) (v : Value) : Json :=
  if asOperand then v.operandForm v.lower else v.lower

/- Lists and expressions are lowered the same anywhere. -/
theorem loweredAs_list
    (asOperand : Bool)
    (items : List Value) :
    loweredAs asOperand (.list items) =
      .array (lowerItems items) := by
  cases asOperand <;> rfl

theorem loweredAs_expr
    (asOperand : Bool)
    (e : Expression) :
    loweredAs asOperand (.expr e) = e.encode := by
  cases asOperand <;> rfl

theorem lowerItems_append
    (first second : List Value) :
    lowerItems (first ++ second) =
      lowerItems first ++ lowerItems second := by
  induction first with
  | nil => rfl
  | cons v rest ih =>
      rw [List.cons_append, lowerItems, ih, lowerItems,
        List.cons_append]

theorem lowerOperands_append
    (first second : List Value) :
    lowerOperands (first ++ second) =
      lowerOperands first ++ lowerOperands second := by
  induction first with
  | nil => rfl
  | cons v rest ih =>
      rw [List.cons_append, lowerOperands, ih, lowerOperands,
        List.cons_append]

theorem lowerEntries_eq_map (entries : List (String × Value)) :
    lowerEntries entries =
      entries.map fun entry => (entry.1, entry.2.lower) := by
  induction entries with
  | nil => rfl
  | cons entry rest ih =>
      rw [lowerEntries, ih, List.map_cons]

end Value

namespace Json

/-
  Members with one of them exchanged: the object is the same
  if the value of it is, or if a later member has its name.
-/
theorem ofMembers_append_cons_eq_iff
    (before after : List (String × Json))
    (name : String)
    (first second : Json) :
    ofMembers (before ++ (name, first) :: after) =
        ofMembers (before ++ (name, second) :: after) ↔
      name ∈ after.map Prod.fst ∨ first = second := by
  have hSame :
      ofMembers (before ++ (name, first) :: after) =
          ofMembers (before ++ (name, second) :: after) ↔
        ((Bag.ofList before).insert name first).overlay after =
          ((Bag.ofList before).insert name second).overlay
            after := by
    unfold ofMembers ofBag Bag.ofList
    rw [Bag.overlay_append, Bag.overlay_append, Bag.overlay_cons,
      Bag.overlay_cons]
    constructor
    · intro h
      exact Bag.ext (Json.object.inj h)
    · intro h
      rw [h]
  rw [hSame]
  by_cases hLater : name ∈ after.map Prod.fst
  · simp only [hLater, true_or, iff_true]
    exact Bag.overlay_insert_of_mem _ first second hLater
  · simp only [hLater, false_or]
    constructor
    · intro h
      have hGet := congrArg (fun bag => bag.get? name) h
      rw [Bag.get?_overlay_of_not_mem _ hLater,
        Bag.get?_overlay_of_not_mem _ hLater, Bag.get?_insert,
        Bag.get?_insert, if_pos rfl, if_pos rfl] at hGet
      exact Option.some.inj hGet
    · intro h
      rw [h]

end Json

namespace Context

variable {v w : Value}

/-
  Two values under a name in a mapping: if it is an operand, a
  later member under the same written name replaces both.
-/
theorem loweredAs_member_eq_iff
    (before after : List (String × Value))
    (name : String)
    (asOperand : Bool) :
    (Value.map (before ++ (name, v) :: after)).loweredAs
          asOperand =
        (Value.map (before ++ (name, w) :: after)).loweredAs
          asOperand ↔
      (asOperand && isRepeated name after) = true ∨
        v.lower = w.lower := by
  cases asOperand with
  | false =>
      change
        Json.object (Value.lowerEntries _) =
            Json.object (Value.lowerEntries _) ↔ _
      rw [Value.lowerEntries_eq_map, Value.lowerEntries_eq_map,
        Json.object.injEq, List.map_append, List.map_append,
        List.map_cons, List.map_cons,
        List.append_cancel_left_eq]
      simp
  | true =>
      change
        Json.ofMembers
              ((Value.lowerEntries _).map _) =
            Json.ofMembers ((Value.lowerEntries _).map _) ↔ _
      rw [Value.lowerEntries_eq_map, Value.lowerEntries_eq_map,
        List.map_append, List.map_append, List.map_append,
        List.map_append, List.map_cons, List.map_cons,
        List.map_cons, List.map_cons,
        Json.ofMembers_append_cons_eq_iff]
      simp [isRepeated, List.map_map, Function.comp_def]

/-
  Whether two values at the same place make a difference: not
  if the place is lost, and else only if they are lowered to
  different trees, as operands if they are operands there. The
  induction is on the place, from outside to inside.
-/
theorem loweredAs_fill_eq_iff
    (p : Context)
    (asOperand : Bool) :
    (p.fill v).loweredAs asOperand =
        (p.fill w).loweredAs asOperand ↔
      p.isLostIn asOperand = true ∨
        v.loweredAs (p.isOperandIn asOperand) =
          w.loweredAs (p.isOperandIn asOperand) := by
  induction p generalizing asOperand with
  | here => simp [fill, isLostIn, isOperandIn]
  | item before inner after ih =>
      have hInner := ih false
      rw [isLostIn, isOperandIn, ← hInner]
      rw [fill, fill, Value.loweredAs_list, Value.loweredAs_list,
        Value.lowerItems_append, Value.lowerItems_append,
        Value.lowerItems, Value.lowerItems, Json.array.injEq,
        List.append_cancel_left_eq, List.cons.injEq]
      exact and_iff_left rfl
  | member before name inner after ih =>
      have hInner := ih false
      rw [isLostIn, isOperandIn, Bool.or_eq_true, or_assoc,
        ← hInner]
      exact loweredAs_member_eq_iff before after name asOperand
  | operand operator before inner after ih =>
      have hInner := ih true
      rw [isLostIn, isOperandIn, ← hInner]
      rw [fill, fill, Value.loweredAs_expr, Value.loweredAs_expr,
        Expression.encode, Expression.encode,
        Value.lowerOperands_append, Value.lowerOperands_append,
        Value.lowerOperands, Value.lowerOperands,
        Json.array.injEq, List.cons.injEq,
        List.append_cancel_left_eq, List.cons.injEq]
      exact (and_iff_right rfl).trans (and_iff_left rfl)
  | wrapped inner ih =>
      have hInner := ih true
      rw [isLostIn, isOperandIn, ← hInner]
      rw [fill, fill, Value.loweredAs_expr, Value.loweredAs_expr,
        Expression.encode, Expression.encode]
      rfl

end Context

------------------------------------------------------------
-- Wrapped values
------------------------------------------------------------

namespace Value

/- Whether a mapping has a name with an underscore. -/
def hasUnderscore : Value → Bool
  | .map entries =>
      entries.any fun entry => entry.1.toList.contains '_'
  | _ => false

/- A wrapped value is lowered as an operand anywhere. -/
theorem loweredAs_wrapped
    (asOperand : Bool)
    (v : Value) :
    loweredAs asOperand (.expr v.toExpression) =
      v.loweredAs true := by
  rw [loweredAs_expr]
  cases v with
  | expr e => rfl
  | _ => rfl

theorem hasUnderscore_map_iff
    {entries : List (String × Value)} :
    (Value.map entries).hasUnderscore = false ↔
      ∀ entry ∈ entries,
        Spelling.hyphenated entry.1 = entry.1 := by
  simp [hasUnderscore, Spelling.hyphenated_eq_self_iff]

/-
  To be an operand makes a difference to mappings with an
  underscore in a name, and to no other value.
-/
theorem loweredAs_eq_iff
    {v : Value}
    (hProper : v.isProper = true) :
    v.loweredAs true = v.loweredAs false ↔
      v.hasUnderscore = false := by
  cases v with
  | map entries =>
      rw [hasUnderscore_map_iff]
      change
        Json.ofMembers
              ((lowerEntries entries).map fun member =>
                (Spelling.hyphenated member.1, member.2)) =
            .object (lowerEntries entries) ↔ _
      have hNames :
          (lowerEntries entries).map Prod.fst =
            entries.map Prod.fst := by
        rw [lowerEntries_eq_map, List.map_map]
        rfl
      constructor
      · intro hSame entry hEntry
        have hEntries := Json.object.inj hSame
        have hKey :
            entry.1 ∈
              (Bag.ofList
                ((lowerEntries entries).map fun member =>
                  (Spelling.hyphenated member.1,
                    member.2))).keys := by
          rw [Bag.keys, hEntries, hNames]
          exact List.mem_map_of_mem hEntry
        rw [Bag.mem_keys_ofList, List.map_map] at hKey
        rcases List.mem_map.mp hKey with ⟨member, _, hName⟩
        rw [← hName]
        exact
          (Spelling.hyphenated_eq_self_iff _).mpr
            (Spelling.not_mem_hyphenated member.1)
      · intro hAll
        have hSame :
            ((lowerEntries entries).map fun member =>
              (Spelling.hyphenated member.1, member.2)) =
              lowerEntries entries := by
          rw [lowerEntries_eq_map, List.map_map]
          apply List.map_congr_left
          intro entry hEntry
          exact Prod.ext (hAll entry hEntry) rfl
        have hNodup : (entries.map Prod.fst).Nodup :=
          of_decide_eq_true hProper
        rw [hSame]
        apply congrArg Json.object
        apply Bag.entries_overlay_of_nodup
        rw [hNames]
        exact hNodup
  | _ => exact iff_of_true rfl rfl

end Value

/-
  Where wrapping does not show. A value and the expression
  that stands for it come out the same in a larger value
  exactly if the place is that of an operand, or is lost, or if
  the value is no mapping with an underscore in a name.
-/
theorem Context.lower_fill_wrapped_iff
    (p : Context)
    {v : Value}
    (hProper : v.isProper = true) :
    (p.fill (.expr v.toExpression)).lower = (p.fill v).lower ↔
      p.isOperand = true ∨ p.isLost = true ∨
        v.hasUnderscore = false := by
  have hPlace :=
    p.loweredAs_fill_eq_iff (v := .expr v.toExpression) (w := v)
      false
  have hWrapped :
      (Value.expr v.toExpression).loweredAs
            (p.isOperandIn false) =
          v.loweredAs (p.isOperandIn false) ↔
        p.isOperand = true ∨ v.hasUnderscore = false := by
    rw [Value.loweredAs_wrapped]
    unfold isOperand
    cases p.isOperandIn false with
    | true => simp
    | false =>
        rw [Value.loweredAs_eq_iff hProper]
        simp
  refine hPlace.trans ?_
  rw [hWrapped]
  exact or_left_comm

/- Options of a format, which are kept with underscores. -/
def fontOptions : Value :=
  .map [("font_scale", .int 1)]

/- As an operand they are the same wrapped, in a list not. -/
theorem Context.lower_fill_wrapped_iff_fontOptions :
    ((Context.operand "format" [.text "name"] .here []).fill
          (.expr fontOptions.toExpression)).lower =
        ((Context.operand "format" [.text "name"] .here []).fill
          fontOptions).lower ∧
      ((Context.item [] .here []).fill
          (.expr fontOptions.toExpression)).lower ≠
        ((Context.item [] .here []).fill fontOptions).lower := by
  have hProper : fontOptions.isProper = true := by
    decide
  constructor
  · apply (lower_fill_wrapped_iff _ hProper).mpr
    exact Or.inl rfl
  · intro hSame
    rcases (lower_fill_wrapped_iff _ hProper).mp hSame with
      hOperand | hLost | hNone
    · cases hOperand
    · cases hLost
    · exact absurd hNone (by decide)

/- On their own they do not encode as themselves. -/
theorem fontOptions_not_itself :
    fontOptions.toExpression.encode ≠ fontOptions.lower := by
  intro hSame
  have hText := congrArg Json.compact hSame
  exact absurd hText (by decide +kernel)

end MapStyle
