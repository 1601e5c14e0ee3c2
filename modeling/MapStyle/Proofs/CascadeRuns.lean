import Mathlib
import MapStyle.Proofs.Diversion
import MapStyle.Proofs.StructuralEquality

/-
  How assignments in cascade blocks are recorded. They are
  recorded one by one, each in view of the last cascade only.
  What results for all of them, in however many blocks they
  stand, is one cascade for each run of assignments under
  equal conditions.

  Key definitions include:
    * `Diverted`
    * `Layer.diverted`
    * `Bag.WrittenOver`
    * `Diverted.AreRuns`
    * `Diverted.Replayed`

  Main statements:
    * `Diverted.areRuns_runs`
    * `Diverted.exists_replayed`
    * `Write.runAll_replays`
-/

namespace MapStyle

------------------------------------------------------------
-- Diverted assignments
------------------------------------------------------------

/- A value that is recorded for a name under a condition. -/
structure Diverted where
  condition : Expression
  key : String
  value : Value

namespace Diverted

/- The name with the value. -/
def entry (d : Diverted) : String × Value :=
  (d.key, d.value)

/- Record it among the cascades of a layer. -/
def recordIn
    (cascades : List Cascade)
    (d : Diverted) : List Cascade :=
  Layer.record cascades d.condition d.key d.value

end Diverted

namespace Layer

/-
  What is recorded of assignments that are performed one after
  the other. Those without a condition change the properties
  that the values of later ones depend on.
-/
def diverted : Bag Value → List Effect → List Diverted
  | _, [] => []
  | properties, effect :: rest =>
      let key := Spelling.underscored effect.name
      let value := effect.value properties
      match effect.condition with
      | some condition =>
          ⟨condition, key, value⟩ :: diverted properties rest
      | none => diverted (properties.insert key value) rest

/- The cascades are those that are left by the records. -/
theorem cascades_of_performAll
    (effects : List Effect) :
    ∀ {layer next : Layer},
      performAll layer effects = .ok next →
        next.cascades =
          (diverted layer.properties effects).foldl
            Diverted.recordIn layer.cascades := by
  induction effects with
  | nil =>
      intro layer next h
      cases h
      rfl
  | cons effect rest ih =>
      intro layer next h
      rcases performAll_cons_eq_ok h with
        ⟨middle, hSet, hRest⟩
      have hLater := ih hRest
      rcases set_cases hSet with
        ⟨condition, hActive, rfl⟩ | ⟨_, hActive, _, rfl⟩
      · have hCondition :
            effect.condition = some condition := hActive
        rw [diverted, hCondition]
        exact hLater
      · have hCondition : effect.condition = none := hActive
        rw [diverted, hCondition]
        exact hLater

end Layer

namespace Write

/- What a block records on a workbench. -/
def diverted
    (body : List Write)
    (w : Workbench) : List Diverted :=
  Layer.diverted w.layer.properties
    (effects w.layer.active body)

end Write

------------------------------------------------------------
-- Names and values
------------------------------------------------------------

namespace Bag

/-
  A bag is what writes leave of an earlier one: it has the
  names in the order of their first write, those of the earlier
  bag in front, and under each name the value that was written
  last, or else the one of the earlier bag.
-/
structure WrittenOver
    (bag base : Bag Value)
    (writes : List (String × Value)) : Prop where
  keys :
    bag.keys =
      (base.keys ++ writes.map Prod.fst).eraseDups
  values :
    ∀ name,
      bag.get? name =
        (Entries.find? name writes.reverse).or
          (base.get? name)

theorem writtenOver_overlay
    (bag : Bag Value)
    (writes : List (String × Value)) :
    (bag.overlay writes).WrittenOver bag writes where
  keys := keys_overlay bag writes
  values := get?_overlay_reverse bag writes

end Bag

------------------------------------------------------------
-- Records
------------------------------------------------------------

namespace Layer

variable {front : List Cascade} {last : Cascade}
variable {condition : Expression} {key : String} {value : Value}

theorem amendLast_concat :
    amendLast condition key value (front ++ [last]) =
      if last.condition.same condition then
        some
          (front
            ++ [⟨last.condition,
                  last.overrides.insert key value⟩])
      else
        none := by
  induction front with
  | nil => rfl
  | cons c rest ih =>
      have hStep :
          amendLast condition key value
              (c :: (rest ++ [last])) =
            (amendLast condition key value
              (rest ++ [last])).map fun r => c :: r := by
        cases rest <;> rfl
      rw [List.cons_append, hStep, ih]
      by_cases hSame : last.condition.same condition = true
      · rw [if_pos hSame, if_pos hSame]
        rfl
      · rw [if_neg hSame, if_neg hSame]
        rfl

/- A record under the condition of the last cascade joins it. -/
theorem record_of_same
    (h : last.condition.same condition = true) :
    record (front ++ [last]) condition key value =
      front
        ++ [⟨last.condition,
              last.overrides.insert key value⟩] := by
  rw [record, amendLast_concat, if_pos h]

/- Any other record begins a cascade. -/
theorem record_of_apart
    {cascades : List Cascade}
    (h :
      ∀ last ∈ cascades.getLast?,
        last.condition.same condition = false) :
    record cascades condition key value =
      cascades
        ++ [⟨condition,
              (Bag.empty : Bag Value).insert key value⟩] := by
  rcases List.eq_nil_or_concat' cascades with
    rfl | ⟨front, last, rfl⟩
  · rfl
  · have hLast := h last List.getLast?_concat
    rw [record, amendLast_concat, if_neg (by simp [hLast])]

end Layer

------------------------------------------------------------
-- Runs
------------------------------------------------------------

namespace Diverted

/- Whether two stand under equal conditions. -/
def isTogether (a b : Diverted) : Bool :=
  a.condition.same b.condition

/- The longest stretches under equal conditions. -/
def runs (writes : List Diverted) : List (List Diverted) :=
  writes.splitBy isTogether

/-
  The writes in order, in parts that are not empty. Conditions
  are equal inside of each part, and neither of two parts that
  follow each other has a condition that equals one of the
  other.
-/
structure AreRuns
    (writes : List Diverted)
    (parts : List (List Diverted)) : Prop where
  flatten : parts.flatten = writes
  nonempty : ∀ run ∈ parts, run ≠ []
  together :
    ∀ run ∈ parts,
      ∀ a ∈ run, ∀ b ∈ run, a.isTogether b = true
  apart :
    parts.IsChain fun run next =>
      ∀ a ∈ run, ∀ b ∈ next, a.isTogether b = false

/- No mapping in the condition repeats a name. -/
def IsProper (d : Diverted) : Prop :=
  d.condition.IsProper

/- No number in the condition is NaN. -/
def HasNoNaN (d : Diverted) : Prop :=
  d.condition.HasNoNaN

/- Being together both ways, since one way is not symmetric. -/
def Together (a b : Diverted) : Prop :=
  a.isTogether b = true ∧ b.isTogether a = true

instance : Std.Symm Together where
  symm _ _ h := ⟨h.2, h.1⟩

instance : Trans Together Together Together where
  trans hFirst hSecond :=
    ⟨Expression.same_trans _ hFirst.1 hSecond.1,
      Expression.same_trans _ hSecond.2 hFirst.2⟩

/- Where neighbours are together, all are. -/
theorem together_of_chain
    {run : List Diverted}
    (hChain : run.IsChain fun a b => a.isTogether b = true)
    (hProper : ∀ d ∈ run, d.IsProper)
    (hNumbers : ∀ d ∈ run, d.HasNoNaN) :
    ∀ a ∈ run, ∀ b ∈ run, a.isTogether b = true := by
  have hBoth : run.IsChain Together := by
    apply hChain.imp_of_mem_imp
    intro a b hA _ hSame
    exact
      ⟨hSame, a.condition.same_symm (hProper a hA) hSame⟩
  have hSelf : ∀ a ∈ run, Together a a := by
    intro a hA
    have hSame :=
      a.condition.same_self (hProper a hA) (hNumbers a hA)
    exact ⟨hSame, hSame⟩
  intro a hA b hB
  exact (hBoth.pairwise.forall_of_forall hSelf hA hB).1

theorem areRuns_runs
    {writes : List Diverted}
    (hProper : ∀ d ∈ writes, d.IsProper)
    (hNumbers : ∀ d ∈ writes, d.HasNoNaN) :
    AreRuns writes (runs writes) := by
  have hFlatten : (runs writes).flatten = writes :=
    List.flatten_splitBy isTogether writes
  have hMem : ∀ run ∈ runs writes, ∀ d ∈ run, d ∈ writes := by
    intro run hRun d hD
    rw [← hFlatten]
    exact List.mem_flatten_of_mem hRun hD
  have hTogether :
      ∀ run ∈ runs writes,
        ∀ a ∈ run, ∀ b ∈ run, a.isTogether b = true := by
    intro run hRun
    apply together_of_chain (List.isChain_of_mem_splitBy hRun)
    · intro d hD
      exact hProper d (hMem run hRun d hD)
    · intro d hD
      exact hNumbers d (hMem run hRun d hD)
  refine
    ⟨hFlatten, fun _ => List.ne_nil_of_mem_splitBy, hTogether,
      ?_⟩
  apply
    (List.isChain_getLast_head_splitBy isTogether
      writes).imp_of_mem_imp
  rintro run next hRun hNext ⟨hRunSome, hNextSome, hApart⟩
  intro a hA b hB
  apply Bool.eq_false_iff.mpr
  intro hSame
  have hLast :=
    hTogether run hRun _ (List.getLast_mem hRunSome) a hA
  have hHead :=
    hTogether next hNext b hB _ (List.head_mem hNextSome)
  have hAll :=
    Expression.same_trans _
      (Expression.same_trans _ hLast hSame) hHead
  exact Bool.eq_false_iff.mp hApart hAll

------------------------------------------------------------
-- Replaying
------------------------------------------------------------

/- A cascade begins with a run. -/
structure Begins
    (run : List Diverted)
    (cascade : Cascade) : Prop where
  condition :
    run.head?.map Diverted.condition = some cascade.condition
  overrides :
    cascade.overrides.WrittenOver .empty (run.map entry)

/- A cascade takes in a run. -/
structure Amends
    (last : Cascade)
    (run : List Diverted)
    (amended : Cascade) : Prop where
  condition : amended.condition = last.condition
  overrides :
    amended.overrides.WrittenOver last.overrides
      (run.map entry)

/- The last cascade has another condition than the first run. -/
def Apart
    (cascades : List Cascade)
    (parts : List (List Diverted)) : Prop :=
  ∀ last ∈ cascades.getLast?,
    ∀ run ∈ parts.head?,
      ∀ d ∈ run, last.condition.same d.condition = false

/-
  Replay runs on cascades. Every run begins a cascade, in their
  order and behind the earlier ones, but for the first run if
  the last cascade has its condition, which takes it in then.
-/
inductive Replayed
    (start : List Cascade) :
    List (List Diverted) →
      List Cascade → List Cascade → Prop
  | apart
      {parts : List (List Diverted)}
      {begun : List Cascade}
      (hApart : Apart start parts)
      (hBegun : List.Forall₂ Begins parts begun) :
      Replayed start parts start begun
  | amending
      {front begun : List Cascade}
      {last amended : Cascade}
      {run : List Diverted}
      {later : List (List Diverted)}
      (hStart : start = front ++ [last])
      (hSame :
        ∀ d ∈ run, last.condition.same d.condition = true)
      (hAmended : Amends last run amended)
      (hBegun : List.Forall₂ Begins later begun) :
      Replayed start (run :: later) (front ++ [amended]) begun

/- The cascade that begins with a run. -/
def beginning
    (first : Diverted)
    (rest : List Diverted) : Cascade where
  condition := first.condition
  overrides := .ofList ((first :: rest).map entry)

/- The cascade that takes in a run. -/
def amended
    (last : Cascade)
    (run : List Diverted) : Cascade where
  condition := last.condition
  overrides := last.overrides.overlay (run.map entry)

theorem begins_beginning
    (first : Diverted)
    (rest : List Diverted) :
    Begins (first :: rest) (beginning first rest) where
  condition := rfl
  overrides := Bag.writtenOver_overlay _ _

theorem amends_amended
    (last : Cascade)
    (run : List Diverted) :
    Amends last run (amended last run) where
  condition := rfl
  overrides := Bag.writtenOver_overlay _ _

/- A run that belongs to the last cascade joins it. -/
theorem foldl_of_together
    {front : List Cascade}
    {last : Cascade}
    {run : List Diverted}
    (h : ∀ d ∈ run, last.condition.same d.condition = true) :
    run.foldl recordIn (front ++ [last]) =
      front ++ [amended last run] := by
  induction run generalizing last with
  | nil => rfl
  | cons d rest ih =>
      rw [List.forall_mem_cons] at h
      rw [List.foldl_cons, recordIn, Layer.record_of_same h.1]
      exact ih h.2

/- Any other run begins a cascade and stays in it. -/
theorem foldl_of_apart
    {cascades : List Cascade}
    {first : Diverted}
    {rest : List Diverted}
    (hApart :
      ∀ last ∈ cascades.getLast?,
        last.condition.same first.condition = false)
    (hRest : ∀ d ∈ rest, first.isTogether d = true) :
    (first :: rest).foldl recordIn cascades =
      cascades ++ [beginning first rest] := by
  rw [List.foldl_cons, recordIn, Layer.record_of_apart hApart]
  exact foldl_of_together hRest

/-
  A condition that a run has is another one than that of the
  next run.
-/
theorem apart_of_together
    {condition : Expression}
    {run next : List Diverted}
    (hProper : condition.IsProper)
    (hSome : run ≠ [])
    (hRun : ∀ a ∈ run, condition.same a.condition = true)
    (hNext : ∀ a ∈ run, ∀ b ∈ next, a.isTogether b = false) :
    ∀ b ∈ next, condition.same b.condition = false := by
  intro b hB
  rcases List.exists_mem_of_ne_nil run hSome with ⟨a, hA⟩
  apply Bool.eq_false_iff.mpr
  intro hSame
  have hBack := condition.same_symm hProper (hRun a hA)
  exact
    Bool.eq_false_iff.mp (hNext a hA b hB)
      (a.condition.same_trans hBack hSame)

theorem AreRuns.tail
    {writes run : List Diverted}
    {later : List (List Diverted)}
    (h : AreRuns writes (run :: later)) :
    AreRuns later.flatten later where
  flatten := rfl
  nonempty := (List.forall_mem_cons.mp h.nonempty).2
  together := (List.forall_mem_cons.mp h.together).2
  apart := h.apart.tail

/-
  A cascade with the condition of a run has another one than
  the next run.
-/
theorem AreRuns.apart_concat
    {writes run : List Diverted}
    {later : List (List Diverted)}
    (h : AreRuns writes (run :: later))
    {front : List Cascade}
    {last : Cascade}
    (hProper : last.condition.IsProper)
    (hRun :
      ∀ a ∈ run, last.condition.same a.condition = true) :
    Apart (front ++ [last]) later := by
  intro other hOther next hNext
  rw [List.getLast?_concat, Option.mem_some_iff] at hOther
  subst hOther
  have hSome := (List.forall_mem_cons.mp h.nonempty).1
  exact
    apart_of_together hProper hSome hRun
      (h.apart.rel_head? hNext)

/-
  If the last cascade has another condition than the first
  run, every run begins a cascade. The induction is on the
  runs; what carries it is that the cascade of a run is apart
  from the next run.
-/
theorem exists_begun
    (parts : List (List Diverted)) :
    ∀ {cascades : List Cascade} {writes : List Diverted},
      AreRuns writes parts →
        (∀ d ∈ writes, d.IsProper) →
          Apart cascades parts →
            ∃ begun,
              writes.foldl recordIn cascades =
                  cascades ++ begun ∧
                List.Forall₂ Begins parts begun := by
  induction parts with
  | nil =>
      intro cascades writes hRuns _ _
      rw [← hRuns.flatten]
      exact ⟨[], (List.append_nil _).symm, .nil⟩
  | cons run later ih =>
      intro cascades writes hRuns hProper hApart
      have hSome := (List.forall_mem_cons.mp hRuns.nonempty).1
      have hTogether :=
        (List.forall_mem_cons.mp hRuns.together).1
      rcases List.exists_cons_of_ne_nil hSome with
        ⟨first, rest, rfl⟩
      rw [← hRuns.flatten, List.flatten_cons] at hProper ⊢
      rw [List.forall_mem_append] at hProper
      have hFirst := hTogether first List.mem_cons_self
      have hBegin :=
        foldl_of_apart
          (fun last hLast =>
            hApart last hLast _ rfl first List.mem_cons_self)
          (List.forall_mem_cons.mp hFirst).2
      have hNext :
          Apart (cascades ++ [beginning first rest]) later :=
        hRuns.apart_concat
          (hProper.1 first List.mem_cons_self) hFirst
      rcases ih hRuns.tail hProper.2 hNext with
        ⟨begun, hLater, hBegun⟩
      refine
        ⟨beginning first rest :: begun, ?_,
          .cons (begins_beginning first rest) hBegun⟩
      rw [List.foldl_append, hBegin, hLater,
        List.append_assoc, List.singleton_append]

/- Recording writes one by one replays their runs. -/
theorem exists_replayed
    {start : List Cascade}
    {writes : List Diverted}
    (hStart : ∀ c ∈ start, c.condition.IsProper)
    (hProper : ∀ d ∈ writes, d.IsProper)
    (hNumbers : ∀ d ∈ writes, d.HasNoNaN) :
    ∃ kept begun,
      writes.foldl recordIn start = kept ++ begun ∧
        Replayed start (runs writes) kept begun := by
  have hRuns := areRuns_runs hProper hNumbers
  by_cases hApart : Apart start (runs writes)
  · rcases exists_begun _ hRuns hProper hApart with
      ⟨begun, hFold, hBegun⟩
    exact ⟨start, begun, hFold, .apart hApart hBegun⟩
  · unfold Apart at hApart
    push Not at hApart
    rcases hApart with ⟨last, hLast, run, hRun, d, hD, hSame⟩
    rcases List.getLast?_eq_some_iff.mp hLast with
      ⟨front, rfl⟩
    rcases List.head?_eq_some_iff.mp hRun with ⟨later, hParts⟩
    rw [hParts] at hRuns ⊢
    have hTogether :=
      (List.forall_mem_cons.mp hRuns.together).1
    have hAll :
        ∀ a ∈ run, last.condition.same a.condition = true := by
      intro a hA
      have hFirst := Bool.ne_false_iff.mp hSame
      exact
        last.condition.same_trans hFirst (hTogether d hD a hA)
    have hLater : ∀ a ∈ later.flatten, a.IsProper := by
      rw [← hRuns.flatten, List.flatten_cons,
        List.forall_mem_append] at hProper
      exact hProper.2
    have hNext :
        Apart (front ++ [amended last run]) later :=
      hRuns.apart_concat (hStart last (by simp)) hAll
    rcases exists_begun _ hRuns.tail hLater hNext with
      ⟨begun, hFold, hBegun⟩
    refine
      ⟨front ++ [amended last run], begun, ?_,
        .amending rfl hAll (amends_amended last run) hBegun⟩
    rw [← hRuns.flatten, List.flatten_cons,
      List.foldl_append, foldl_of_together hAll, hFold]

------------------------------------------------------------
-- New cascades
------------------------------------------------------------

theorem Begins.not_isEmpty
    {run : List Diverted}
    {cascade : Cascade}
    (hSome : run ≠ [])
    (h : Begins run cascade) :
    cascade.overrides.isEmpty = false := by
  rcases List.exists_cons_of_ne_nil hSome with
    ⟨first, rest, rfl⟩
  have hKeys := h.overrides.keys
  apply Bool.eq_false_iff.mpr
  intro hEmpty
  have hNone : cascade.overrides.keys = [] := by
    rw [Bag.keys, List.isEmpty_iff.mp hEmpty, List.map_nil]
  rw [hNone, List.map_cons, List.map_cons] at hKeys
  change [] = (first.key :: _).eraseDups at hKeys
  rw [List.eraseDups_cons] at hKeys
  cases hKeys

theorem not_isEmpty_of_begins
    {parts : List (List Diverted)}
    {begun : List Cascade}
    (hSome : ∀ run ∈ parts, run ≠ [])
    (h : List.Forall₂ Begins parts begun) :
    ∀ c ∈ begun, c.overrides.isEmpty = false := by
  induction h with
  | nil =>
      intro c hC
      cases hC
  | cons hFirst _ ih =>
      rw [List.forall_mem_cons] at hSome ⊢
      exact ⟨hFirst.not_isEmpty hSome.1, ih hSome.2⟩

/- New cascades begin with runs that come last. -/
theorem Replayed.begins
    {start kept begun : List Cascade}
    {parts : List (List Diverted)}
    (h : Replayed start parts kept begun) :
    ∃ own,
      own <:+ parts ∧ List.Forall₂ Begins own begun := by
  cases h with
  | apart _ hBegun => exact ⟨_, List.suffix_rfl, hBegun⟩
  | amending _ _ _ hBegun =>
      exact ⟨_, List.suffix_cons _ _, hBegun⟩

/- What a cascade begins with has its condition. -/
theorem Begins.exists_condition
    {run : List Diverted}
    {cascade : Cascade}
    (h : Begins run cascade) :
    ∃ d ∈ run, d.condition = cascade.condition := by
  rcases Option.map_eq_some_iff.mp h.condition with
    ⟨d, hHead, hCondition⟩
  exact ⟨d, List.mem_of_mem_head? hHead, hCondition⟩

/- Cascades of runs that follow each other are apart. -/
theorem isChain_of_begins
    {parts : List (List Diverted)}
    {begun : List Cascade}
    (hApart :
      parts.IsChain fun run next =>
        ∀ a ∈ run, ∀ b ∈ next, a.isTogether b = false)
    (h : List.Forall₂ Begins parts begun) :
    begun.IsChain fun c d =>
      c.condition.same d.condition = false := by
  induction h with
  | nil => exact .nil
  | cons hFirst hLater ih =>
      rw [List.isChain_cons] at hApart ⊢
      refine ⟨?_, ih hApart.2⟩
      intro c hC
      cases hLater with
      | nil => cases hC
      | cons hNext _ =>
          cases hC
          rcases hFirst.exists_condition with ⟨a, hA, hFrom⟩
          rcases hNext.exists_condition with ⟨b, hB, hTo⟩
          rw [← hFrom, ← hTo]
          exact hApart.1 _ rfl a hA b hB

end Diverted

------------------------------------------------------------
-- Blocks of assignments
------------------------------------------------------------

namespace Write

/-
  What is recorded falls into runs, and the cascades that are
  left are those of the layer with the runs replayed on them,
  whatever the blocks are that it was recorded in. No new
  cascade is empty, and none has the condition of the new one
  before. If all assignments are recorded, none of them fails.

  A mapping has every name once, but a list of entries could
  repeat one: hence the assumptions on names.
-/
theorem runAll_replays
    {body : List Write}
    {w : Workbench}
    (hStart : ∀ c ∈ w.layer.cascades, c.condition.IsProper)
    (hProper : ∀ d ∈ diverted body w, d.IsProper)
    (hNumbers : ∀ d ∈ diverted body w, d.HasNoNaN) :
    ((∀ effect ∈ effects w.layer.active body,
        effect.condition.isSome) →
      ∃ v, runAll body w = .ok () v) ∧
      Diverted.AreRuns (diverted body w)
        (Diverted.runs (diverted body w)) ∧
        ∀ {v}, runAll body w = .ok () v →
          ∃ kept begun,
            v.layer.cascades = kept ++ begun ∧
              Diverted.Replayed w.layer.cascades
                (Diverted.runs (diverted body w)) kept begun ∧
                (∀ c ∈ begun, c.overrides.isEmpty = false) ∧
                  begun.IsChain fun c d =>
                    c.condition.same d.condition = false := by
  have hRuns := Diverted.areRuns_runs hProper hNumbers
  have hOutcome := outcome_runAll body w
  unfold outcome at hOutcome
  refine ⟨?_, hRuns, ?_⟩
  · intro hAll
    rw [Layer.performAll_of_conditions _ _ rfl hAll] at hOutcome
    cases hRun : runAll body w with
    | ok _ v => exact ⟨v, rfl⟩
    | error e v =>
        rw [hRun] at hOutcome
        cases hOutcome
  · intro v hRun
    rw [hRun] at hOutcome
    have hPerform :
        w.layer.quiet.performAll
            (effects w.layer.active body) =
          .ok v.layer.quiet := hOutcome.symm
    have hRecords := Layer.cascades_of_performAll _ hPerform
    have hCascades :
        v.layer.cascades =
          (diverted body w).foldl Diverted.recordIn
            w.layer.cascades := hRecords
    rcases Diverted.exists_replayed hStart hProper hNumbers with
      ⟨kept, begun, hFold, hReplayed⟩
    rcases hReplayed.begins with ⟨own, hOwn, hBegun⟩
    refine
      ⟨kept, begun, hCascades.trans hFold, hReplayed, ?_, ?_⟩
    · apply Diverted.not_isEmpty_of_begins _ hBegun
      intro run hRun
      exact hRuns.nonempty run (hOwn.subset hRun)
    · exact
        Diverted.isChain_of_begins (hRuns.apart.suffix hOwn)
          hBegun

/-
  A layer with cascades, and blocks of which the first goes on
  under the condition of the last cascade. The two next ones
  with assignments belong together in spite of the one between
  them, while the last one comes back to an earlier condition.
-/
def cascading : Workbench where
  layer :=
    { Layer.ofProperties .empty with
      cascades :=
        [⟨.get "m", .ofList [("line_blur", .int 1)]⟩,
          ⟨.get "k", .ofList [("line_width", .int 1)]⟩] }
  sheet := .empty
  log := #[]

def recurring : List Write :=
  [.cascade [.expr (.get "k")]
      [.assign "line_color" fun _ => .text "red"],
    .cascade [.expr (.get "m")]
      [.assign "line_width" fun _ => .int 2],
    .cascade [.expr (.get "k")] [],
    .cascade [.expr (.get "m")]
      [.assign "line_color" fun _ => .text "blue",
        .assign "line_width" fun _ => .int 3],
    .cascade [.expr (.get "k")]
      [.assign "line_width" fun _ => .int 4]]

theorem effects_recurring :
    effects none recurring =
      [⟨some (.get "k"), "line_color", fun _ => .text "red"⟩,
        ⟨some (.get "m"), "line_width", fun _ => .int 2⟩,
        ⟨some (.get "m"), "line_color", fun _ => .text "blue"⟩,
        ⟨some (.get "m"), "line_width", fun _ => .int 3⟩,
        ⟨some (.get "k"), "line_width", fun _ => .int 4⟩] := by
  simp [recurring, effects, Expression.condition?,
    Value.toExpression]

theorem diverted_recurring :
    diverted recurring cascading =
      [⟨.get "k", "line_color", .text "red"⟩,
        ⟨.get "m", "line_width", .int 2⟩,
        ⟨.get "m", "line_color", .text "blue"⟩,
        ⟨.get "m", "line_width", .int 3⟩,
        ⟨.get "k", "line_width", .int 4⟩] := by
  have hActive : cascading.layer.active = none := rfl
  rw [diverted, hActive, effects_recurring]
  rfl

theorem runAll_replays_recurring :
    ∃ v kept begun,
      runAll recurring cascading = .ok () v ∧
        v.layer.cascades = kept ++ begun ∧
          Diverted.Replayed cascading.layer.cascades
            (Diverted.runs (diverted recurring cascading)) kept
              begun ∧
            (Diverted.runs
                (diverted recurring cascading)).map
                List.length =
              [1, 3, 1] := by
  have hProper (field : String) :
      (Expression.get field).IsProper := rfl
  have hNumbers (field : String) :
      (Expression.get field).HasNoNaN := rfl
  have hRuns :
      (Diverted.runs (diverted recurring cascading)).map
          List.length =
        [1, 3, 1] := by
    rw [diverted_recurring]
    decide +kernel
  have hReplays :=
    @runAll_replays recurring cascading
      (by simp [cascading, hProper])
      (by
        rw [diverted_recurring]
        simp [Diverted.IsProper, hProper])
      (by
        rw [diverted_recurring]
        simp [Diverted.HasNoNaN, hNumbers])
  have hAll :
      ∀ effect ∈ effects cascading.layer.active recurring,
        effect.condition.isSome := by
    have hActive : cascading.layer.active = none := rfl
    rw [hActive, effects_recurring]
    simp
  rcases hReplays.1 hAll with ⟨v, hRun⟩
  rcases hReplays.2.2 hRun with
    ⟨kept, begun, hCascades, hReplayed, _⟩
  exact ⟨v, kept, begun, hRun, hCascades, hReplayed, hRuns⟩

end Write

end MapStyle
