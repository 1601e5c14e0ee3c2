import MapStyle.Proofs.CascadeBlocks
import MapStyle.Proofs.Compilation

/-
  What `suppress` does to a document. A program is compared
  with the one in which the statement has been inserted into
  some block: exactly the entry of the layer on which the block
  works is gone, and whatever has been derived from this layer
  stays as it is.

  Key definitions include:
    * `Body.Suppresses`
    * `Program.Suppresses`
    * `Branch.Leads`
    * `Trunk.Leads`

  Main statements:
    * `Body.Derives.suppresses`
    * `Program.Derives.suppresses`
    * `Program.properties_of_runWithin`
    * `Sheet.load_suppressing`
    * `Document.ofTextFrom_suppressing`
-/

namespace MapStyle

------------------------------------------------------------
-- Suppressed layers
------------------------------------------------------------

/- The statement that keeps a layer out of the document. -/
def Statement.suppress : Statement :=
  .mk "suppress" [] none

namespace Layer

/- The layer, kept out of the document. -/
def suppressed (layer : Layer) : Layer :=
  { layer with written := false }

theorem entry?_suppressed (layer : Layer) :
    layer.suppressed.entry? = .ok none := rfl

variable {layer next : Layer}

/- An assignment does not ask whether the layer is written. -/
theorem set_suppressed
    {name : String}
    {value : Value}
    (h : layer.set name value = .ok next) :
    layer.suppressed.set name value =
      .ok next.suppressed := by
  rcases set_cases h with
    ⟨condition, hActive, rfl⟩ | ⟨settled, hActive, hSet, rfl⟩
  · have hSame : layer.suppressed.active = some condition :=
      hActive
    rw [set_of_active name value hSame]
    rfl
  · have hSame : layer.suppressed.active = none := hActive
    rw [set_of_inactive name value hSame,
      settledWith_congr layer layer.suppressed rfl rfl, hSet]
    rfl

/- No statement asks for it, and none turns it back. -/
theorem Performs.suppressed
    {name : String}
    {values : List Value}
    (h : Performs name values layer next) :
    Performs name values layer.suppressed next.suppressed := by
  cases h with
  | uncascaded => exact .uncascaded values _
  | filter => exact .filter values _
  | rename _ hText => exact .rename _ hText
  | suppress => exact .suppress values _
  | assign hName hSet => exact .assign hName (set_suppressed hSet)
  | value _ _ hKeyword hName =>
      exact .value values _ hKeyword hName

end Layer

------------------------------------------------------------
-- Ways to a layer
------------------------------------------------------------

namespace Branch

/-
  Step over some branches on the way that a list of numbers
  describes; the empty list describes the layer itself.
-/
def stepOver
    (count : Nat) : List Nat → List Nat
  | [] => []
  | number :: path => (count + number) :: path

theorem stepOver_zero (path : List Nat) :
    stepOver 0 path = path := by
  cases path with
  | nil => rfl
  | cons number path => rw [stepOver, Nat.zero_add]

/-
  The child to which a way leads: its first number counts the
  branches beside each other, and the others lead on inside of
  the branch. With the child come the layers that go before
  it and those that go after it.
-/
inductive Leads :
    List Nat → List Branch →
      List Layer → Layer → List Layer → Prop
  | child
    (refinement : Refinement)
    (carried : List Expression)
    (inner : List Branch)
    (child : Layer)
    (rest : List Branch) :
      Leads [0] (.mk refinement carried inner child :: rest)
        (layersOfAll inner) child
        (siblings refinement child ++ layersOfAll rest)
  | inside
    (refinement : Refinement)
    (carried : List Expression)
    {inner : List Branch}
    (child : Layer)
    (rest : List Branch)
    {path : List Nat}
    {before after : List Layer}
    {layer : Layer}
    (h : Leads path inner before layer after) :
      Leads (0 :: path)
        (.mk refinement carried inner child :: rest) before
        layer
        (after
          ++ child :: siblings refinement child
          ++ layersOfAll rest)
  | later
    (branch : Branch)
    {rest : List Branch}
    {number : Nat}
    {path : List Nat}
    {before after : List Layer}
    {layer : Layer}
    (h : Leads (number :: path) rest before layer after) :
      Leads ((number + 1) :: path) (branch :: rest)
        (layers branch ++ before) layer after

variable {path : List Nat}
variable {branches : List Branch}
variable {before after : List Layer}
variable {layer : Layer}

namespace Leads

theorem layersOfAll_eq
    (h : Leads path branches before layer after) :
    layersOfAll branches = before ++ layer :: after := by
  induction h with
  | child =>
      rw [layersOfAll, layers, List.append_assoc]
      rfl
  | inside _ _ _ _ _ ih =>
      rw [layersOfAll, layers, ih]
      simp only [List.append_assoc, List.cons_append]
  | later _ _ ih =>
      rw [layersOfAll, ih, List.append_assoc]

/- Branches that follow come after everything else. -/
theorem append
    (h : Leads path branches before layer after)
    (more : List Branch) :
    Leads path (branches ++ more) before layer
      (after ++ Branch.layersOfAll more) := by
  induction h with
  | child refinement carried inner child rest =>
      rw [List.append_assoc, ← layersOfAll_append]
      exact .child refinement carried inner child _
  | inside refinement carried child rest h _ =>
      rw [List.append_assoc, ← layersOfAll_append]
      exact .inside refinement carried child _ h
  | later branch _ ih => exact .later branch ih

/- Branches that go before are stepped over. -/
theorem stepOver
    (h : Leads path branches before layer after)
    (first : List Branch) :
    Leads (Branch.stepOver first.length path)
      (first ++ branches) (layersOfAll first ++ before) layer
      after := by
  induction first with
  | nil =>
      rw [List.length_nil, stepOver_zero]
      exact h
  | cons branch rest ih =>
      rw [layersOfAll, List.append_assoc]
      cases path with
      | nil => cases h
      | cons number path =>
          have hNumber :
              rest.length + 1 + number =
                rest.length + number + 1 := by
            omega
          rw [List.length_cons, Branch.stepOver, hNumber]
          exact .later branch ih

end Leads

/-
  A layer and its branches beside those of a run in which the
  layer at the end of a way is suppressed: the layer itself or
  one child of the branches.
-/
inductive Suppression :
    List Nat → Layer → List Branch →
      Layer → List Branch → Prop
  | own
    (layer : Layer)
    {branches other : List Branch}
    (hLayers : layersOfAll other = layersOfAll branches) :
      Suppression [] layer branches layer.suppressed other
  | below
    (layer : Layer)
    {path : List Nat}
    {branches other : List Branch}
    {before after : List Layer}
    {child : Layer}
    (hChild : Leads path branches before child after)
    (hLayers :
      layersOfAll other =
        before ++ child.suppressed :: after) :
      Suppression path layer branches layer other

namespace Suppression

variable {last reached : Layer}
variable {other : List Branch}

/- Equal branches go before the suppressed layer. -/
theorem stepOver
    (h : Suppression path last branches reached other)
    (first : List Branch) :
    Suppression (Branch.stepOver first.length path) last
      (first ++ branches) reached (first ++ other) := by
  cases h with
  | own _ hLayers =>
      refine .own _ ?_
      rw [layersOfAll_append, layersOfAll_append, hLayers]
  | below _ hChild hLayers =>
      refine .below _ (hChild.stepOver first) ?_
      rw [layersOfAll_append, hLayers, List.append_assoc]

/-
  The layer on which an `on` block works is a child of the
  layer around the block.
-/
theorem inside
    {inner plain : List Branch}
    {child finished : Layer}
    (h : Suppression path child inner finished plain)
    (last : Layer)
    (refinement : Refinement)
    (carried : List Expression)
    (rest : List Branch) :
    Suppression (0 :: path) last
      (.mk refinement carried inner child :: rest) last
      (.mk refinement carried plain finished :: rest) := by
  cases h with
  | own _ hLayers =>
      refine
        .below last
          (.child refinement carried inner child rest) ?_
      rw [layersOfAll, layers, hLayers, List.append_assoc]
      rfl
  | below _ hChild hLayers =>
      refine
        .below last
          (.inside refinement carried child rest hChild) ?_
      rw [layersOfAll, layers, hLayers]
      simp only [List.append_assoc, List.cons_append]

end Suppression

end Branch

------------------------------------------------------------
-- Bodies
------------------------------------------------------------

namespace Body

mutual

/-
  How many branches a statement derives from the layer. A
  cascade block works on the layer itself.
-/
def statementOns : Statement → Nat
  | .mk name _ block =>
      if name = "on" then
        1
      else if name = "cascade" then
        blockOns block
      else
        0

/- How many branches several statements derive. -/
def ons : List Statement → Nat
  | [] => 0
  | statement :: rest => statementOns statement + ons rest

/- The same for a block; there may be none. -/
def blockOns : Option (List Statement) → Nat
  | none => 0
  | some statements => ons statements

end

theorem blockOns_eq (block : Option (List Statement)) :
    blockOns block = ons (block.getD []) := by
  cases block with
  | none => rw [blockOns, Option.getD_none, ons]
  | some statements => rw [blockOns, Option.getD_some]

theorem statementOns_on
    (args : List Argument)
    (block : Option (List Statement)) :
    statementOns (.mk "on" args block) = 1 := by
  rw [statementOns, if_pos rfl]

theorem statementOns_cascade
    (args : List Argument)
    (block : Option (List Statement)) :
    statementOns (.mk "cascade" args block) =
      ons (block.getD []) := by
  rw [statementOns, if_neg (by decide), if_pos rfl,
    blockOns_eq]

theorem statementOns_of_ne
    {name : String}
    (args : List Argument)
    (block : Option (List Statement))
    (hName : name ≠ "on" ∧ name ≠ "cascade") :
    statementOns (.mk name args block) = 0 := by
  rw [statementOns, if_neg hName.1, if_neg hName.2]

/-
  The statement `suppress` is inserted somewhere into a body:
  between its statements, or into the block to which a way
  leads. Its numbers count the `on` blocks; those inside of
  cascade blocks belong to the same layer.
-/
inductive Suppresses :
    List Nat → List Statement → List Statement → Prop
  | here (statements : List Statement) :
      Suppresses [] statements
        (.suppress :: statements)
  | later
    (statement : Statement)
    {path : List Nat}
    {rest altered : List Statement}
    (h : Suppresses path rest altered) :
      Suppresses
        (Branch.stepOver (statementOns statement) path)
        (statement :: rest) (statement :: altered)
  | on
    (args : List Argument)
    {block : Option (List Statement)}
    (rest : List Statement)
    {path : List Nat}
    {altered : List Statement}
    (h : Suppresses path (block.getD []) altered) :
      Suppresses (0 :: path) (.mk "on" args block :: rest)
        (.mk "on" args (some altered) :: rest)
  | cascade
    (args : List Argument)
    {block : Option (List Statement)}
    (rest : List Statement)
    {path : List Nat}
    {altered : List Statement}
    (h : Suppresses path (block.getD []) altered) :
      Suppresses path (.mk "cascade" args block :: rest)
        (.mk "cascade" args (some altered) :: rest)

/- A statement that derives nothing is no step on the way. -/
theorem Suppresses.past
    {name : String}
    {args : List Argument}
    {block : Option (List Statement)}
    {path : List Nat}
    {rest altered : List Statement}
    (hName : name ≠ "on" ∧ name ≠ "cascade")
    (h : Suppresses path rest altered) :
    Suppresses path (.mk name args block :: rest)
      (.mk name args block :: altered) := by
  have hLater := h.later (.mk name args block)
  rw [statementOns_of_ne args block hName,
    Branch.stepOver_zero] at hLater
  exact hLater

end Body

namespace Body.Derives

variable {sources : Sources}
variable {statements altered : List Statement}
variable {carried kept : List Expression}
variable {layer last : Layer}
variable {branches : List Branch}

/- What a body does that begins with an `on` block. -/
theorem on_cons
    {args : List Argument}
    {block : Option (List Statement)}
    {rest : List Statement}
    (h :
      Derives sources (.mk "on" args block :: rest) carried
        layer kept last branches) :
    ∃ values inside child inner more,
      layer.Evaluates args values ∧
        Derives sources (block.getD [])
            (carried ++ layer.uncascaded.toList)
            (layer.refine values sources).child inside child
            inner ∧
          Derives sources rest carried
              (layer.refine values sources).parent kept last
              more ∧
            branches =
              .mk (layer.refine values sources) carried inner
                child :: more := by
  generalize hName : "on" = name at h
  cases h with
  | plain _ hStep _ =>
      exact absurd hName.symm hStep.ne_block.1
  | refine hArgs hBody hRest =>
      exact ⟨_, _, _, _, _, hArgs, hBody, hRest, rfl⟩
  | cascade => exact absurd hName (by decide)

/- What a body does that begins with a cascade block. -/
theorem cascade_cons
    {args : List Argument}
    {block : Option (List Statement)}
    {rest : List Statement}
    (h :
      Derives sources (.mk "cascade" args block :: rest)
        carried layer kept last branches) :
    ∃ values inside reached inner more,
      layer.Evaluates args values ∧
        Derives sources (block.getD []) carried
            { layer with
              active := Expression.condition? values }
            inside reached inner ∧
          Derives sources rest inside
              { reached with active := none } kept last
              more ∧
            branches = inner ++ more := by
  generalize hName : "cascade" = name at h
  cases h with
  | plain _ hStep _ =>
      exact absurd hName.symm hStep.ne_block.2
  | refine => exact absurd hName (by decide)
  | cascade hArgs hBody hRest =>
      exact ⟨_, _, _, _, _, hArgs, hBody, hRest, rfl⟩

theorem length_branches
    (h :
      Derives sources statements carried layer kept last
        branches) :
    branches.length = ons statements := by
  induction h with
  | nil _ _ => rw [ons, List.length_nil]
  | plain _ hStep _ ih =>
      rw [ons, statementOns_of_ne _ _ hStep.ne_block, ih,
        Nat.zero_add]
  | refine _ _ _ _ ih =>
      rw [ons, statementOns_on, List.length_cons, ih,
        Nat.add_comm]
  | cascade _ _ _ ihBody ihRest =>
      rw [ons, statementOns_cascade, List.length_append, ihBody,
        ihRest]

/-
  A body derives from the suppressed layer what it derives
  from the layer: children and siblings do not take over that
  their parent is suppressed.
-/
theorem suppressed
    (h :
      Derives sources statements carried layer kept last
        branches) :
    ∃ other,
      Derives sources statements carried layer.suppressed kept
          last.suppressed other ∧
        Branch.layersOfAll other =
          Branch.layersOfAll branches := by
  induction h with
  | nil _ _ => exact ⟨[], .nil _ _, rfl⟩
  | plain hArgs hStep _ ih =>
      rcases ih with ⟨other, hRest, hLayers⟩
      exact
        ⟨other, .plain (hArgs.congr rfl) hStep.suppressed hRest,
          hLayers⟩
  | @refine args values block rest carried _ _ layer child _
      inner branches hArgs hBody _ _ ih =>
      rcases ih with ⟨other, hRest, hLayers⟩
      refine
        ⟨.mk (layer.suppressed.refine values sources) carried
            inner child :: other,
          .refine (hArgs.congr rfl) hBody hRest, ?_⟩
      rw [Branch.layersOfAll, hLayers]
      rfl
  | cascade hArgs _ _ ihBody ihRest =>
      rcases ihBody with ⟨otherInner, hInside, hInner⟩
      rcases ihRest with ⟨other, hRest, hLayers⟩
      refine
        ⟨otherInner ++ other,
          .cascade (hArgs.congr rfl) hInside hRest, ?_⟩
      rw [Branch.layersOfAll_append, Branch.layersOfAll_append,
        hInner, hLayers]

theorem suppress_cons
    (h :
      Derives sources statements carried layer.suppressed kept
        last branches) :
    Derives sources (.suppress :: statements) carried layer
      kept last branches := by
  have hArgs : layer.Evaluates [] [] := rfl
  exact .plain hArgs (.suppress [] layer) h

/-
  A body into which `suppress` has been inserted derives what
  the body derives, but with one layer suppressed. The
  induction is on the way to the place of the insertion.
-/
theorem suppresses
    {path : List Nat}
    (hSuppresses : Suppresses path statements altered) :
    ∀ {carried kept : List Expression} {layer last : Layer}
      {branches : List Branch},
      Derives sources statements carried layer kept last
          branches →
        ∃ reached other,
          Derives sources altered carried layer kept reached
              other ∧
            Branch.Suppression path last branches reached
              other := by
  induction hSuppresses with
  | here statements =>
      intro carried kept layer last branches h
      rcases h.suppressed with ⟨other, hDerives, hLayers⟩
      exact
        ⟨last.suppressed, other, hDerives.suppress_cons,
          .own last hLayers⟩
  | later statement _ ih =>
      intro carried kept layer last branches h
      cases h with
      | plain hArgs hStep hRest =>
          rcases ih hRest with ⟨reached, other, hOther, hEnd⟩
          rw [statementOns_of_ne _ _ hStep.ne_block,
            Branch.stepOver_zero]
          exact
            ⟨reached, other, .plain hArgs hStep hOther, hEnd⟩
      | refine hArgs hBody hRest =>
          rcases ih hRest with ⟨reached, other, hOther, hEnd⟩
          rw [statementOns_on]
          exact
            ⟨reached, _, .refine hArgs hBody hOther,
              hEnd.stepOver [_]⟩
      | cascade hArgs hBody hRest =>
          rcases ih hRest with ⟨reached, other, hOther, hEnd⟩
          rw [statementOns_cascade, ← hBody.length_branches]
          exact
            ⟨reached, _, .cascade hArgs hBody hOther,
              hEnd.stepOver _⟩
  | on args rest _ ih =>
      intro carried kept layer last branches h
      rcases h.on_cons with
        ⟨values, inside, child, inner, more, hArgs, hBody,
          hRest, rfl⟩
      rcases ih hBody with ⟨reached, other, hOther, hEnd⟩
      exact
        ⟨last, _, .refine hArgs hOther hRest,
          hEnd.inside last _ _ _⟩
  | cascade args rest _ ih =>
      intro carried kept layer last branches h
      rcases h.cascade_cons with
        ⟨values, inside, reached, inner, more, hArgs, hBody,
          hRest, rfl⟩
      rcases ih hBody with ⟨found, other, hOther, hEnd⟩
      cases hEnd with
      | own _ hInner =>
          rcases hRest.suppressed with
            ⟨plain, hPlain, hLayers⟩
          refine
            ⟨last.suppressed, other ++ plain,
              .cascade hArgs hOther hPlain, .own last ?_⟩
          rw [Branch.layersOfAll_append,
            Branch.layersOfAll_append, hInner, hLayers]
      | below _ hChild hInner =>
          refine
            ⟨last, other ++ more, .cascade hArgs hOther hRest,
              .below last (hChild.append more) ?_⟩
          rw [Branch.layersOfAll_append, hInner,
            List.append_assoc]
          rfl

end Body.Derives

------------------------------------------------------------
-- Programs
------------------------------------------------------------

/-
  The layer to which a way leads: the first number counts the
  layers that statements define, and the others lead on to a
  child. With it come the layers before and after it.
-/
inductive Trunk.Leads :
    List Nat → List Trunk →
      List Layer → Layer → List Layer → Prop
  | layer
    (trunk : Trunk)
    (rest : List Trunk) :
      Leads [0] (trunk :: rest) [] trunk.layer
        (Branch.layersOfAll trunk.branches
          ++ layersOfAll rest)
  | inside
    {trunk : Trunk}
    (rest : List Trunk)
    {path : List Nat}
    {before after : List Layer}
    {layer : Layer}
    (h :
      Branch.Leads path trunk.branches before layer after) :
      Leads (0 :: path) (trunk :: rest)
        (trunk.layer :: before) layer
        (after ++ layersOfAll rest)
  | later
    (trunk : Trunk)
    {rest : List Trunk}
    {number : Nat}
    {path : List Nat}
    {before after : List Layer}
    {layer : Layer}
    (h : Leads (number :: path) rest before layer after) :
      Leads ((number + 1) :: path) (trunk :: rest)
        (trunk.layers ++ before) layer after

theorem Trunk.Leads.layersOfAll_eq
    {path : List Nat}
    {trunks : List Trunk}
    {before after : List Layer}
    {layer : Layer}
    (h : Leads path trunks before layer after) :
    layersOfAll trunks = before ++ layer :: after := by
  unfold layersOfAll
  induction h with
  | layer trunk rest => rfl
  | inside rest h =>
      rw [List.flatMap_cons, layers, h.layersOfAll_eq]
      simp only [List.append_assoc, List.cons_append,
        layersOfAll]
  | later trunk _ ih =>
      rw [List.flatMap_cons, ih, List.append_assoc]

namespace Program

/-
  The statement `suppress` is inserted into the block of a
  layer, or into a block inside of it. The first number of the
  way counts the layers.
-/
inductive Suppresses : List Nat → Program → Program → Prop
  | layer
    (args : List Argument)
    {block : Option (List Statement)}
    (rest : Program)
    {path : List Nat}
    {altered : List Statement}
    (h : Body.Suppresses path (block.getD []) altered) :
      Suppresses (0 :: path) (.mk "layer" args block :: rest)
        (.mk "layer" args (some altered) :: rest)
  | layerLater
    (args : List Argument)
    (block : Option (List Statement))
    {number : Nat}
    {path : List Nat}
    {rest altered : Program}
    (h : Suppresses (number :: path) rest altered) :
      Suppresses ((number + 1) :: path)
        (.mk "layer" args block :: rest)
        (.mk "layer" args block :: altered)
  | otherLater
    {statement : Statement}
    (hName : statement.name ≠ "layer")
    {path : List Nat}
    {rest altered : Program}
    (h : Suppresses path rest altered) :
      Suppresses path (statement :: rest)
        (statement :: altered)

/- No statement of a program includes a text. -/
def IncludesNone (program : Program) : Prop :=
  ∀ statement ∈ program, statement.name ≠ "include"

variable {texts : Texts}
variable {bound : Nat}
variable {path : List Nat}
variable {program altered : Program}

theorem IncludesNone.tail
    {statement : Statement}
    {rest : Program}
    (h : IncludesNone (statement :: rest)) :
    IncludesNone rest := by
  intro other hOther
  exact h other (List.mem_cons_of_mem _ hOther)

/- What a program does that begins with a layer. -/
theorem Derives.layer_cons
    {args : List Argument}
    {block : Option (List Statement)}
    {rest : Program}
    {sources last : Sources}
    {trunks : List Trunk}
    (h :
      Derives texts bound (.mk "layer" args block :: rest)
        sources last trunks) :
    ∃ values id options kept finished branches more,
      Evaluates args values ∧
        Arguments.nameAndOptions values "layer" =
            .ok (id, options) ∧
          Body.Derives sources (block.getD []) []
              (Layer.create id options sources) kept finished
              branches ∧
            Derives texts bound rest sources last more ∧
              trunks = ⟨finished, branches⟩ :: more := by
  generalize hName : "layer" = name at h
  cases h with
  | source => exact absurd hName (by decide)
  | layer hArgs hOptions hBody hRest =>
      exact
        ⟨_, _, _, _, _, _, _, hArgs, hOptions, hBody, hRest,
          rfl⟩
  | splice => exact absurd hName (by decide)
  | property _ hOther _ =>
      rw [← hName] at hOther
      exact absurd (by decide) hOther

/-
  A program into which `suppress` has been inserted derives
  the same layers in the same order, one of them suppressed.
-/
theorem Derives.suppresses
    (hSuppresses : Suppresses path program altered) :
    ∀ {sources last : Sources} {trunks : List Trunk},
      IncludesNone program →
        Derives texts bound program sources last trunks →
          ∃ other before layer after,
            Derives texts bound altered sources last other ∧
              Trunk.Leads path trunks before layer after ∧
                Trunk.layersOfAll other =
                  before ++ layer.suppressed :: after := by
  unfold Trunk.layersOfAll
  induction hSuppresses with
  | layer args rest h =>
      intro sources last trunks _ hDerives
      rcases hDerives.layer_cons with
        ⟨values, id, options, kept, finished, branches, more,
          hArgs, hOptions, hBody, hRest, rfl⟩
      rcases hBody.suppresses h with
        ⟨reached, other, hOther, hEnd⟩
      have hAltered :
          Derives texts bound (.mk "layer" args (some _) :: _)
            sources last _ :=
        .layer hArgs hOptions hOther hRest
      cases hEnd with
      | own _ hLayers =>
          refine ⟨_, _, _, _, hAltered, .layer _ more, ?_⟩
          rw [List.flatMap_cons, Trunk.layers, hLayers]
          rfl
      | below _ hChild hLayers =>
          refine ⟨_, _, _, _, hAltered, .inside more hChild, ?_⟩
          rw [List.flatMap_cons, Trunk.layers, hLayers]
          simp only [List.append_assoc, List.cons_append,
            Trunk.layersOfAll]
  | layerLater args block _ ih =>
      intro sources last trunks hIncludes hDerives
      rcases hDerives.layer_cons with
        ⟨values, id, options, kept, finished, branches, more,
          hArgs, hOptions, hBody, hRest, rfl⟩
      rcases ih hIncludes.tail hRest with
        ⟨other, before, found, after, hOther, hLeads, hLayers⟩
      refine
        ⟨_, _, _, _, .layer hArgs hOptions hBody hOther,
          .later _ hLeads, ?_⟩
      rw [List.flatMap_cons, hLayers, List.append_assoc]
  | otherLater hName _ ih =>
      intro sources last trunks hIncludes hDerives
      cases hDerives with
      | source hArgs hOptions hRest =>
          rcases ih hIncludes.tail hRest with
            ⟨other, before, found, after, hOther, hEnd⟩
          exact
            ⟨other, before, found, after,
              .source hArgs hOptions hOther, hEnd⟩
      | layer => exact absurd rfl hName
      | splice =>
          exact absurd rfl (hIncludes _ List.mem_cons_self)
      | property hArgs hOther hRest =>
          rcases ih hIncludes.tail hRest with
            ⟨other, before, found, after, hDerived, hEnd⟩
          exact
            ⟨other, before, found, after,
              .property hArgs hOther hDerived, hEnd⟩

------------------------------------------------------------
-- Properties of the document
------------------------------------------------------------

/-
  The properties of the document after a program that includes
  nothing: every statement that is no declaration sets one.
-/
def properties :
    Program → Bag Value → Bag Value
  | [], found => found
  | statement :: rest, found =>
      if statement.name ∈ ["source", "layer"] then
        properties rest found
      else
        match
          (Scope.evaluateArguments ⟨.empty, none⟩
            statement.args).outcome
        with
        | .ok values =>
            properties rest
              (found.insert statement.name
                (values.head?.getD .null))
        | .error _ => found

theorem properties_declaration
    {statement : Statement}
    (hName : statement.name ∈ ["source", "layer"])
    (rest : Program)
    (found : Bag Value) :
    properties (statement :: rest) found =
      properties rest found := by
  rw [properties, if_pos hName]

theorem properties_layer
    (args : List Argument)
    (block : Option (List Statement))
    (rest : Program)
    (found : Bag Value) :
    properties (.mk "layer" args block :: rest) found =
      properties rest found :=
  properties_declaration (by simp [Statement.name]) rest found

/- Blocks of layers set no property of the document. -/
theorem Suppresses.properties_eq
    (h : Suppresses path program altered)
    (found : Bag Value) :
    properties altered found = properties program found := by
  induction h generalizing found with
  | layer args rest _ =>
      rw [properties_layer, properties_layer]
  | layerLater args block _ ih =>
      rw [properties_layer, properties_layer, ih]
  | otherLater _ _ ih => simp only [properties, ih]

theorem Suppresses.includesNone
    (h : Suppresses path program altered)
    (hIncludes : IncludesNone program) :
    IncludesNone altered := by
  unfold IncludesNone at hIncludes ⊢
  induction h with
  | layer args rest _ =>
      rw [List.forall_mem_cons] at hIncludes ⊢
      exact hIncludes
  | layerLater args block _ ih =>
      rw [List.forall_mem_cons] at hIncludes ⊢
      exact ⟨hIncludes.1, ih hIncludes.2⟩
  | otherLater _ _ ih =>
      rw [List.forall_mem_cons] at hIncludes ⊢
      exact ⟨hIncludes.1, ih hIncludes.2⟩

/- What a run without includes leaves of the properties. -/
theorem properties_of_runTopLevel
    {splice : String → Sheet Failure Unit}
    (hIncludes : IncludesNone program) :
    ∀ {s t : Session},
      s.sheet.extensions = .empty →
        runTopLevel splice program s = .ok () t →
          t.sheet.properties =
            properties program s.sheet.properties := by
  induction program with
  | nil =>
      intro s t _ h
      cases h
      rfl
  | cons statement rest ih =>
      intro s t hEmpty h
      have hTail := hIncludes.tail
      rcases Action.bind_eq_ok.mp h with
        ⟨_, u, hStatement, hRest⟩
      rcases statement with ⟨name, args, block⟩
      rcases (runStatement_eq_ok _ hEmpty).mp hStatement with
        ⟨values, hArgs, hStep⟩
      cases hStep with
      | source hOptions =>
          have hKept := ih hTail (by exact hEmpty) hRest
          rw [properties_declaration (by simp [Statement.name])]
          exact hKept
      | @layer _ _ id options w hOptions hBody =>
          rw [properties_layer]
          rcases Body.derives_of_runBlock block [] hEmpty
              (Layer.create_sourced id options) hBody with
            ⟨_, inner, hInner, _⟩
          have hSheet := layerSession_layers hInner
          have hStillEmpty :
              (Sheet.layerSession (Sheet.evaluatedSession args s)
                w).sheet.extensions = .empty := by
            rw [hSheet]
            exact hEmpty
          rw [ih hTail hStillEmpty hRest, hSheet]
          rfl
      | splice _ _ =>
          exact absurd rfl (hIncludes _ List.mem_cons_self)
      | property hName =>
          have hOther :
              (Statement.mk name args none).name ∉
                ["source", "layer"] := by
            intro hMem
            exact hName (List.mem_append_left ["include"] hMem)
          have hValues :
              (Scope.evaluateArguments ⟨.empty, none⟩
                (Statement.mk name args none).args).outcome =
                .ok values :=
            hArgs
          rw [properties, if_neg hOther, hValues]
          exact ih hTail (by exact hEmpty) hRest

theorem properties_of_runWithin
    (hIncludes : IncludesNone program)
    {s t : Session}
    (hEmpty : s.sheet.extensions = .empty)
    (h : runWithin texts bound program s = .ok () t) :
    t.sheet.properties =
      properties program s.sheet.properties := by
  rw [runWithin_eq] at h
  exact properties_of_runTopLevel hIncludes hEmpty h

end Program

------------------------------------------------------------
-- Texts
------------------------------------------------------------

/-
  A text that includes nothing, beside one that reads as its
  program with `suppress` inserted into some block: that one
  loads as well, and its layers are those of the text, but the
  layer to which the way to the block leads is suppressed.
-/
theorem Sheet.load_suppressing
    {texts : Texts}
    {source changed : String}
    {program altered : Program}
    {path : List Nat}
    {s t : Session}
    (hEmpty : s.sheet.extensions = .empty)
    (hRead : Program.read source = .ok program)
    (hChanged : Program.read changed = .ok altered)
    (hSuppresses : Program.Suppresses path program altered)
    (hIncludes : program.IncludesNone)
    (hLoad : load texts source s = .ok () t) :
    ∃ trunks before layer after u,
      Program.Derives texts Program.maxIncludes program
          s.sheet.sources t.sheet.sources trunks ∧
        Trunk.Leads path trunks before layer after ∧
          t.sheet.layers =
              s.sheet.layers ++ (before ++ layer :: after) ∧
            load texts changed s = .ok () u ∧
              u.sheet.properties = t.sheet.properties ∧
                u.sheet.sources = t.sheet.sources ∧
                  u.sheet.layers =
                    s.sheet.layers
                      ++ (before
                        ++ layer.suppressed :: after) := by
  rcases load_eq_ok.mp hLoad with ⟨found, hFound, hRun⟩
  rw [hRead] at hFound
  cases hFound
  rcases Program.yields_of_runWithin _ program hRun hEmpty with
    ⟨trunks, hYields⟩
  rcases Program.Derives.suppresses hSuppresses hIncludes
      hYields.derives with
    ⟨other, before, layer, after, hDerives, hLeads, hLayers⟩
  rcases hDerives.runWithin hEmpty rfl with
    ⟨u, hAltered, hSources, hOther⟩
  have hAlteredLayers := hOther.layers
  rw [hLayers] at hAlteredLayers
  have hSourceLayers := hYields.layers
  rw [hLeads.layersOfAll_eq] at hSourceLayers
  have hProperties :
      u.sheet.properties = t.sheet.properties := by
    rw [Program.properties_of_runWithin
        (hSuppresses.includesNone hIncludes) hEmpty hAltered,
      hSuppresses.properties_eq,
      Program.properties_of_runWithin hIncludes hEmpty hRun]
  exact
    ⟨trunks, before, layer, after, u, hYields.derives, hLeads,
      hSourceLayers,
      load_eq_ok.mpr ⟨altered, hChanged, hAltered⟩,
      hProperties, hSources, hAlteredLayers⟩

namespace Document

/-
  The same for documents: nothing is gone but the entry of the
  suppressed layer, if it had one.
-/
theorem ofTextFrom_suppressing
    {texts : Texts}
    {source changed : String}
    {program altered : Program}
    {path : List Nat}
    {session : Session}
    {document : Json}
    (hEmpty : session.sheet.extensions = .empty)
    (hRead : Program.read source = .ok program)
    (hChanged : Program.read changed = .ok altered)
    (hSuppresses : Program.Suppresses path program altered)
    (hIncludes : program.IncludesNone)
    (hDocument :
      (ofTextFrom session texts ⟨false⟩ source).outcome =
        .ok document) :
    ∃ loaded trunks before layer after front entry back,
      Sheet.load texts source session = .ok () loaded ∧
        Program.Derives texts Program.maxIncludes program
            session.sheet.sources loaded.sheet.sources
            trunks ∧
          Trunk.Leads path trunks before layer after ∧
            Layer.Emits (session.sheet.layers ++ before)
                front ∧
              layer.entry? = .ok entry ∧
                Layer.Emits after back ∧
                  document =
                      Stylesheet.document
                        loaded.sheet.properties
                        loaded.sheet.sources
                        (front ++ (entry.toList ++ back)) ∧
                    (ofTextFrom session texts ⟨false⟩
                        changed).outcome =
                      .ok
                        (Stylesheet.document
                          loaded.sheet.properties
                          loaded.sheet.sources
                          (front ++ back)) := by
  rcases ofTextFrom_eq_ok.mp hDocument with
    ⟨loaded, entries, hLoad, hEmits, rfl⟩
  rcases Sheet.load_suppressing hEmpty hRead hChanged
      hSuppresses hIncludes hLoad with
    ⟨trunks, before, layer, after, u, hDerives, hLeads,
      hLayers, hAltered, hProperties, hSources,
      hAlteredLayers⟩
  rw [hLayers, ← List.append_assoc] at hEmits
  rcases Layer.emits_append_iff.mp hEmits with
    ⟨front, others, hFront, hOthers, rfl⟩
  rcases Layer.emits_cons_iff.mp hOthers with
    ⟨entry, back, hEntry, hBack, rfl⟩
  have hAlteredEmits :
      Layer.Emits u.sheet.layers (front ++ back) := by
    rw [hAlteredLayers, ← List.append_assoc]
    apply Layer.emits_append_iff.mpr
    exact
      ⟨front, back, hFront,
        .cons layer.entry?_suppressed hBack, rfl⟩
  refine
    ⟨loaded, trunks, before, layer, after, front, entry, back,
      hLoad, hDerives, hLeads, hFront, hEntry, hBack, rfl, ?_⟩
  apply ofTextFrom_eq_ok.mpr
  refine ⟨u, _, hAltered, hAlteredEmits, ?_⟩
  rw [hProperties, hSources]

/- The names of the layers in the document of a text. -/
def layerNames? (source : String) : Option (List String) :=
  match
    (ofText (Texts.ofList []) ⟨false⟩ source).outcome
  with
  | .ok (.object members) =>
      match Entries.find? "layers" members with
      | some (.array layers) =>
          layers.mapM fun layer =>
            match layer with
            | .object entries =>
                match Entries.find? "id" entries with
                | some (.text name) => some name
                | _ => none
            | _ => none
      | _ => none
  | _ => none

theorem exists_of_layerNames?
    {source : String}
    {names : List String}
    (h : layerNames? source = some names) :
    ∃ document,
      (ofText (Texts.ofList []) ⟨false⟩ source).outcome =
        .ok document := by
  unfold layerNames? at h
  split at h
  · next members hOutcome => exact ⟨_, hOutcome⟩
  · cases h

/- A block in a cascade block, with a block inside of it. -/
def heard : String :=
  "layer :a \x7b
    cascade j \x7b line_width 2
      on k \x7b line_color :red
        on \x7d \x7d
  \x7d"

def hushed : String :=
  "layer :a \x7b
    cascade j \x7b line_width 2
      on k \x7b line_color :red
        suppress
        on \x7d \x7d
  \x7d"

/- Both programs; a block goes on after the color. -/
def heardWith (block : List Statement) : Program :=
  let width : Statement :=
    .mk "line_width" [.positional (.literal (.int 2))] none
  let color : Statement :=
    .mk "line_color" [.positional (.literal (.text "red"))] none
  let outer : Statement :=
    .mk "on" [.positional (.ident "k")] (some (color :: block))
  let cascade : Statement :=
    .mk "cascade" [.positional (.ident "j")]
      (some [width, outer])
  [.mk "layer" [.positional (.literal (.text "a"))]
    (some [cascade])]

theorem read_heard :
    Program.read heard =
      .ok (heardWith [.mk "on" [] none]) := by
  cbv

theorem read_hushed :
    Program.read hushed =
      .ok (heardWith [.suppress, .mk "on" [] none]) := by
  cbv

/- The way leads into the first block of the first layer. -/
theorem suppresses_heardWith (block : List Statement) :
    Program.Suppresses [0, 0] (heardWith block)
      (heardWith (.suppress :: block)) := by
  apply Program.Suppresses.layer
  apply Body.Suppresses.cascade
  apply Body.Suppresses.past (by decide)
  apply Body.Suppresses.on
  apply Body.Suppresses.past (by decide)
  exact .here block

/-
  The child is gone; its own child and both siblings of each
  are still there.
-/
theorem ofTextFrom_suppressing_heard :
    ∃ document altered properties sources front entry back,
      (ofText (Texts.ofList []) ⟨false⟩ heard).outcome =
          .ok document ∧
        layerNames? heard =
          some
            ["a__1__1", "a__1__1__a", "a__1", "a__1__a"] ∧
        Program.Suppresses [0, 0]
          (heardWith [.mk "on" [] none])
          (heardWith [.suppress, .mk "on" [] none]) ∧
        document =
          Stylesheet.document properties sources
            (front ++ (Option.toList entry ++ back)) ∧
        (ofText (Texts.ofList []) ⟨false⟩ hushed).outcome =
          .ok altered ∧
        layerNames? hushed =
          some ["a__1__1", "a__1__1__a", "a__1__a"] ∧
        altered =
          Stylesheet.document properties sources
            (front ++ back) := by
  have hNames :
      layerNames? heard =
        some
          ["a__1__1", "a__1__1__a", "a__1", "a__1__a"] := by
    decide +kernel
  have hFewer :
      layerNames? hushed =
        some ["a__1__1", "a__1__1__a", "a__1__a"] := by
    decide +kernel
  have hIncludes :
      Program.IncludesNone
        (heardWith [.mk "on" [] none]) := by
    intro statement hStatement
    rw [heardWith, List.mem_singleton] at hStatement
    subst hStatement
    exact (by decide : "layer" ≠ "include")
  rcases exists_of_layerNames? hNames with
    ⟨document, hDocument⟩
  rcases ofTextFrom_suppressing rfl read_heard read_hushed
      (suppresses_heardWith _) hIncludes hDocument with
    ⟨_, _, _, _, _, _, _, _, _, _, _, _, _, _, hWhole,
      hAltered⟩
  exact
    ⟨_, _, _, _, _, _, _, hDocument, hNames,
      suppresses_heardWith _, hWhole, hAltered, hFewer, rfl⟩

end Document

end MapStyle
