import MapStyle.Expression.Build

/-
  Combining the expressions of a sequence under a bracketing.
  Where a combination is put to the right of another one, it
  becomes one of its operands and is not dissolved: there the
  bracketing can be told from the result, and there the result
  gets deeper.

  Key definitions include:
    * `Expression.parts`
    * `Expression.deepest`
    * `Bracketing`
    * `Bracketing.merged`
    * `Bracketing.overlaps`

  Main statements:
    * `Expression.merge_assoc_iff`
    * `Expression.chain_operands`
    * `Bracketing.parts_merged`
    * `Bracketing.depth_merged_le`
    * `Bracketing.merged_flat_iff`
-/

namespace MapStyle

------------------------------------------------------------
-- Single merges
------------------------------------------------------------

namespace Expression

variable {op : Combinator}
variable {a b c e : Expression}

/- Whether an expression is a combination of a kind. -/
def isCombined
    (op : Combinator)
    (e : Expression) : Bool :=
  (e.combined? op).isSome

/-
  What an expression contributes to a flat combination: the
  operands of a combination of the same kind, else itself.
-/
def parts
    (op : Combinator)
    (e : Expression) : List Value :=
  (e.combined? op).getD [.expr e]

@[simp] theorem combined?_node (operands : List Value) :
    combined? op (.node op.operator operands) =
      some operands := by
  rw [combined?, if_pos rfl]

@[simp] theorem parts_node (operands : List Value) :
    parts op (.node op.operator operands) = operands := by
  rw [parts, combined?_node, Option.getD_some]

theorem eq_node_of_isCombined
    (h : e.isCombined op = true) :
    e = .node op.operator (e.parts op) := by
  rcases Option.isSome_iff_exists.mp h with
    ⟨operands, hCombined⟩
  cases e with
  | pass v => cases hCombined
  | node operator found =>
      rw [combined?, Option.ite_none_right_eq_some]
        at hCombined
      rw [hCombined.1, parts_node]

theorem parts_of_not_isCombined
    (h : e.isCombined op = false) :
    e.parts op = [.expr e] := by
  rw [isCombined, Option.isSome_eq_false_iff,
    Option.isNone_iff_eq_none] at h
  rw [parts, h, Option.getD_none]

/-
  A merge contributes what both sides do, but for a
  combination to the right of another one, which stays whole.
-/
theorem merge_eq
    (op : Combinator)
    (a b : Expression) :
    merge op a b =
      .node op.operator
        (a.parts op ++
          if a.isCombined op then [.expr b]
          else b.parts op) := by
  unfold merge isCombined parts
  cases a.combined? op with
  | some operands => rfl
  | none =>
      cases b.combined? op with
      | some operands => rfl
      | none => rfl

@[simp] theorem isCombined_merge :
    (merge op a b).isCombined op = true := by
  rw [merge_eq, isCombined, combined?_node,
    Option.isSome_some]

theorem parts_merge :
    (merge op a b).parts op =
      a.parts op ++
        if a.isCombined op then [.expr b]
        else b.parts op := by
  rw [merge_eq, parts_node]

/- No expression is its own only part but a single one. -/
theorem singleton_eq_parts_iff :
    [.expr e] = e.parts op ↔ e.isCombined op = false := by
  constructor
  · intro hParts
    cases hCombined : e.isCombined op with
    | false => rfl
    | true =>
        have hNode := eq_node_of_isCombined hCombined
        have hSize := congrArg sizeOf hNode
        rw [← hParts] at hSize
        simp at hSize
        omega
  · intro hSingle
    rw [parts_of_not_isCombined hSingle]

/- Combinations of a kind are equal if their parts are. -/
theorem eq_iff_parts_eq
    (ha : a.isCombined op = true)
    (hb : b.isCombined op = true) :
    a = b ↔ a.parts op = b.parts op := by
  constructor
  · intro hSame
    rw [hSame]
  · intro hParts
    rw [eq_node_of_isCombined ha, eq_node_of_isCombined hb,
      hParts]

/-
  Of three expressions, the first must not be a combination
  already, and the last not unless the second is one.
-/
theorem merge_assoc_iff :
    merge op (merge op a b) c = merge op a (merge op b c) ↔
      a.isCombined op = false ∧
        (b.isCombined op = true ∨ c.isCombined op = false) := by
  rw [eq_iff_parts_eq isCombined_merge isCombined_merge]
  cases ha : a.isCombined op with
  | true =>
      simp [parts_merge, ha]
  | false =>
      cases hb : b.isCombined op with
      | true =>
          simp [parts_merge, ha, hb]
      | false =>
          simp [parts_merge, ha, hb, parts_of_not_isCombined hb,
            singleton_eq_parts_iff]

/- The depth of the deepest of several expressions. -/
def deepest : List Expression → Nat
  | [] => 0
  | e :: rest => max e.depth (deepest rest)

theorem deepest_append
    (first second : List Expression) :
    deepest (first ++ second) =
      max (deepest first) (deepest second) := by
  induction first with
  | nil => simp [deepest]
  | cons e rest ih =>
      rw [List.cons_append, deepest, ih, deepest,
        Nat.max_assoc]

theorem operandsDepth_append
    (first second : List Value) :
    Value.operandsDepth (first ++ second) =
      max (Value.operandsDepth first)
        (Value.operandsDepth second) := by
  induction first with
  | nil => simp [Value.operandsDepth]
  | cons v rest ih =>
      rw [List.cons_append, Value.operandsDepth, ih,
        Value.operandsDepth, Nat.max_assoc]

theorem depth_pos (e : Expression) : 0 < e.depth := by
  cases e with
  | pass v =>
      rw [depth]
      omega
  | node operator operands =>
      rw [depth]
      omega

theorem operandsDepth_singleton (e : Expression) :
    Value.operandsDepth [.expr e] = e.depth := by
  simp [Value.operandsDepth, Value.depth]

/- A combination is one level deeper than its parts. -/
theorem depth_of_isCombined
    (h : e.isCombined op = true) :
    e.depth = 1 + Value.operandsDepth (e.parts op) := by
  conv => lhs; rw [eq_node_of_isCombined h]
  rw [depth]

/-
  A merge is one level deeper than either side, but for sides
  that are dissolved in it.
-/
theorem depth_merge :
    (merge op a b).depth =
      max
        (if a.isCombined op then a.depth else a.depth + 1)
        (if b.isCombined op && !a.isCombined op then b.depth
          else b.depth + 1) := by
  rw [depth_of_isCombined isCombined_merge, parts_merge,
    operandsDepth_append]
  cases ha : a.isCombined op with
  | true =>
      rw [depth_of_isCombined ha]
      simp [operandsDepth_singleton]
      omega
  | false =>
      rw [parts_of_not_isCombined ha]
      cases hb : b.isCombined op with
      | true =>
          rw [depth_of_isCombined hb]
          simp [operandsDepth_singleton]
          omega
      | false =>
          rw [parts_of_not_isCombined hb]
          simp [operandsDepth_singleton]
          omega

------------------------------------------------------------
-- Chains
------------------------------------------------------------

/-
  Merging one after another into a combination puts everything
  behind its operands, whole. The induction is on the chain:
  whatever has been merged is a combination again.
-/
theorem foldl_merge_of_isCombined
    (rest : List Expression)
    (h : a.isCombined op = true) :
    rest.foldl (merge op) a =
      .node op.operator (a.parts op ++ rest.map .expr) := by
  induction rest generalizing a with
  | nil =>
      rw [List.foldl_nil, List.map_nil, List.append_nil]
      exact eq_node_of_isCombined h
  | cons e rest ih =>
      rw [List.foldl_cons, ih isCombined_merge, parts_merge,
        if_pos h, List.map_cons, List.append_assoc,
        List.singleton_append]

theorem foldl_merge_eq
    (a b : Expression)
    (rest : List Expression) :
    (b :: rest).foldl (merge op) a =
      .node op.operator
        (a.parts op
          ++ (if a.isCombined op then [.expr b]
              else b.parts op)
          ++ rest.map .expr) := by
  rw [List.foldl_cons,
    foldl_merge_of_isCombined rest isCombined_merge,
    parts_merge]

/- The parts of an expression are no deeper than it is. -/
theorem operandsDepth_parts_le (e : Expression) :
    Value.operandsDepth (e.parts op) ≤ e.depth := by
  cases h : e.isCombined op with
  | true =>
      rw [depth_of_isCombined h]
      omega
  | false =>
      rw [parts_of_not_isCombined h]
      exact Nat.le_of_eq (operandsDepth_singleton e)

theorem operandsDepth_map_expr (es : List Expression) :
    Value.operandsDepth (es.map .expr) = deepest es := by
  induction es with
  | nil => rfl
  | cons e rest ih =>
      rw [List.map_cons, Value.operandsDepth, ih, deepest,
        Value.depth]

theorem depth_foldl_merge_le
    (a b : Expression)
    (rest : List Expression) :
    ((b :: rest).foldl (merge op) a).depth ≤
      deepest (a :: b :: rest) + 1 := by
  have hFirst := @operandsDepth_parts_le op a
  have hSecond :
      Value.operandsDepth
          (if a.isCombined op then [.expr b]
            else b.parts op) ≤ b.depth := by
    split
    · exact Nat.le_of_eq (operandsDepth_singleton b)
    · exact operandsDepth_parts_le b
  rw [foldl_merge_eq, depth, operandsDepth_append,
    operandsDepth_append, operandsDepth_map_expr, deepest,
    deepest]
  omega

/-
  What merging from left to right gives: one combination of
  the operands of the first expression, those of the second
  one if the first is no combination, and all others whole.
  Expressions that are no combinations come out one by one,
  and the result is never more than one level deeper than the
  deepest of them.
-/
theorem chain_operands
    (op : Combinator)
    (a b : Expression)
    (rest : List Expression) :
    (b :: rest).foldl (merge op) a =
        .node op.operator
          (a.parts op
            ++ (if a.isCombined op then [.expr b]
                else b.parts op)
            ++ rest.map .expr) ∧
      ((∀ e ∈ a :: b :: rest, e.isCombined op = false) →
        (b :: rest).foldl (merge op) a =
          .node op.operator ((a :: b :: rest).map .expr)) ∧
      ((b :: rest).foldl (merge op) a).depth ≤
        deepest (a :: b :: rest) + 1 := by
  refine
    ⟨foldl_merge_eq a b rest, ?_, depth_foldl_merge_le a b rest⟩
  intro hSingle
  rw [List.forall_mem_cons, List.forall_mem_cons] at hSingle
  rcases hSingle with ⟨ha, hb, _⟩
  rw [foldl_merge_eq, if_neg (Bool.eq_false_iff.mp ha),
    parts_of_not_isCombined ha, parts_of_not_isCombined hb]
  rfl

/- A condition that holds if one of two others does. -/
def disjunction : Expression :=
  any [.expr (.get "b"), .expr (.get "c")]

/-
  In a chain of conditions that all have to hold it is no
  combination of their kind, and stays one operand.
-/
theorem chain_operands_disjunction :
    (∀ e ∈ [get "a", disjunction, get "d"],
        e.isCombined .all = false) ∧
      [disjunction, get "d"].foldl (merge .all) (get "a") =
        .node "all"
          [.expr (get "a"), .expr disjunction,
            .expr (get "d")] := by
  have hSingle :
      ∀ e ∈ [get "a", disjunction, get "d"],
        e.isCombined .all = false := by
    decide
  exact
    ⟨hSingle,
      (chain_operands .all (get "a") disjunction
        [get "d"]).2.1 hSingle⟩

end Expression

------------------------------------------------------------
-- Bracketings
------------------------------------------------------------

open Expression

/- A sequence of expressions with brackets around pairs. -/
inductive Bracketing
  | single (e : Expression)
  | pair (left right : Bracketing)

namespace Bracketing

/- The expressions of a bracketing, left to right. -/
def leaves : Bracketing → List Expression
  | single e => [e]
  | pair l r => l.leaves ++ r.leaves

/- The result of merging pair by pair. -/
def merged (op : Combinator) : Bracketing → Expression
  | single e => e
  | pair l r => merge op (l.merged op) (r.merged op)

/-
  How often, on the way down to a single expression, one has
  to go to the right where both sides are combinations.
-/
def overlaps (op : Combinator) : Bracketing → Nat
  | single _ => 0
  | pair l r =>
      if (l.merged op).isCombined op
          && (r.merged op).isCombined op then
        max (l.overlaps op) (r.overlaps op + 1)
      else
        max (l.overlaps op) (r.overlaps op)

variable {op : Combinator}

/- Where nothing overlaps, every combination is dissolved. -/
theorem parts_merged
    {t : Bracketing}
    (h : t.overlaps op = 0) :
    (t.merged op).parts op = t.leaves.flatMap (parts op) := by
  induction t with
  | single e => simp [merged, leaves]
  | pair l r ihl ihr =>
      rw [overlaps] at h
      split at h
      · omega
      · next hApart =>
          rw [merged, parts_merge, ihl (by omega),
            ihr (by omega), leaves, List.flatMap_append]
          cases hl : (l.merged op).isCombined op with
          | false => simp
          | true =>
              have hr :
                  (r.merged op).isCombined op = false := by
                simpa [hl] using hApart
              rw [← ihr (by omega),
                parts_of_not_isCombined hr]
              simp

theorem sizeOf_append
    (first second : List Value) :
    sizeOf (first ++ second) + 1 =
      sizeOf first + sizeOf second := by
  induction first with
  | nil =>
      simp
      omega
  | cons v rest ih =>
      simp
      omega

/- Every overlap leaves a combination that is not dissolved. -/
theorem sizeOf_flatMap_parts_le (t : Bracketing) :
    sizeOf (t.leaves.flatMap (parts op)) + t.overlaps op ≤
      sizeOf ((t.merged op).parts op) := by
  induction t with
  | single e => simp [merged, leaves, overlaps]
  | pair l r ihl ihr =>
      have hFlat :=
        sizeOf_append (l.leaves.flatMap (parts op))
          (r.leaves.flatMap (parts op))
      rw [leaves, List.flatMap_append, merged, parts_merge,
        overlaps]
      cases hl : (l.merged op).isCombined op with
      | false =>
          have hParts :=
            sizeOf_append ((l.merged op).parts op)
              ((r.merged op).parts op)
          simp
          omega
      | true =>
          have hParts :=
            sizeOf_append ((l.merged op).parts op)
              [.expr (r.merged op)]
          cases hr : (r.merged op).isCombined op with
          | false =>
              rw [parts_of_not_isCombined hr] at ihr
              simp
              omega
          | true =>
              have hNode := eq_node_of_isCombined hr
              have hSize := congrArg sizeOf hNode
              simp at hSize hParts ⊢
              omega

/-
  A combination is one level deeper than the deepest of its
  expressions, and one more for every overlap on a way down.
-/
theorem depth_merged_le (t : Bracketing) :
    (t.merged op).depth ≤
      deepest t.leaves
        + (if (t.merged op).isCombined op then
            1 + t.overlaps op
          else 0) := by
  induction t with
  | single e =>
      simp [merged, leaves, deepest]
  | pair l r ihl ihr =>
      rw [merged, isCombined_merge, depth_merge, leaves,
        deepest_append, overlaps]
      cases hl : (l.merged op).isCombined op with
      | false =>
          cases hr : (r.merged op).isCombined op with
          | false =>
              simp [hl, hr] at ihl ihr ⊢
              omega
          | true =>
              simp [hl, hr] at ihl ihr ⊢
              omega
      | true =>
          cases hr : (r.merged op).isCombined op with
          | false =>
              simp [hl, hr] at ihl ihr ⊢
              omega
          | true =>
              simp [hl, hr] at ihl ihr ⊢
              omega

/- Every overlap makes the result deeper. -/
theorem overlaps_lt_depth (t : Bracketing) :
    t.overlaps op < (t.merged op).depth := by
  induction t with
  | single e => exact e.depth_pos
  | pair l r ihl ihr =>
      rw [merged, depth_merge, overlaps]
      cases hl : (l.merged op).isCombined op with
      | false =>
          simp
          split
          · omega
          · omega
      | true =>
          cases hr : (r.merged op).isCombined op with
          | false =>
              simp
              omega
          | true =>
              simp
              omega

/-
  How far merging is associative and flat. Three expressions
  may be bracketed either way exactly if no combination comes
  to stand to the right of another; a bracketing gives the
  flat combination of its sequence exactly if nothing in it
  overlaps; and every overlap on a way down adds one level to
  the single one that merging adds.
-/
theorem merged_flat_iff (op : Combinator) :
    (∀ a b c,
      merge op (merge op a b) c = merge op a (merge op b c) ↔
        a.isCombined op = false ∧
          (b.isCombined op = true ∨
            c.isCombined op = false)) ∧
      (∀ l r,
        (pair l r).merged op =
            .node op.operator
              ((pair l r).leaves.flatMap (parts op)) ↔
          (pair l r).overlaps op = 0) ∧
      ∀ t : Bracketing,
        t.overlaps op < (t.merged op).depth ∧
          (t.merged op).depth ≤
            deepest t.leaves + 1 + t.overlaps op := by
  refine ⟨fun a b c => merge_assoc_iff, ?_, ?_⟩
  · intro l r
    have hCombined :
        ((pair l r).merged op).isCombined op = true :=
      isCombined_merge
    constructor
    · intro hFlat
      have hSize := @sizeOf_flatMap_parts_le op (pair l r)
      rw [hFlat, parts_node] at hSize
      omega
    · intro hApart
      rw [eq_node_of_isCombined hCombined, parts_merged hApart]
  · intro t
    have hUpper := @depth_merged_le op t
    refine ⟨t.overlaps_lt_depth, ?_⟩
    split at hUpper
    · omega
    · omega

/- Four conditions, grouped to the left. -/
def leftToRight : Bracketing :=
  pair
    (pair (pair (single (.get "a")) (single (.get "b")))
      (single (.get "c")))
    (single (.get "d"))

/- The same conditions, grouped in pairs. -/
def pairwise : Bracketing :=
  pair (pair (single (.get "a")) (single (.get "b")))
    (pair (single (.get "c")) (single (.get "d")))

/-
  Conditions that are no combinations at all, in two
  bracketings: the results differ, and one of them is two
  levels deeper than the conditions.
-/
theorem pairwise_not_flat :
    pairwise.leaves = leftToRight.leaves ∧
      pairwise.merged .all ≠ leftToRight.merged .all ∧
      deepest pairwise.leaves + 1 <
        (pairwise.merged .all).depth := by
  refine ⟨rfl, ?_, by decide⟩
  intro hSame
  have hDepth := congrArg depth hSame
  exact absurd hDepth (by decide)

end Bracketing

end MapStyle
