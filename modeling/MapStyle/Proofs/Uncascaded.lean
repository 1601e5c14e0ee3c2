import Mathlib.Data.List.Forall2
import MapStyle.Proofs.Conjuncts
import MapStyle.Proofs.LayerOrder
import MapStyle.Proofs.Reading
import MapStyle.Proofs.RefinedFilter

/-
  How far uncascaded conditions reach. A program is compared
  with the one from which all `uncascaded` statements have
  been deleted: the siblings have the same names and
  properties, and their filters differ by the uncascaded
  conditions that were in force at the blocks around them.

  Key definitions include:
    * `Body.withoutUncascaded`
    * `Layer.bare`
    * `Branch.Matches`

  Main statements:
    * `Body.Derives.withoutUncascaded`
    * `Program.Derives.withoutUncascaded`
    * `Sheet.load_withoutUncascaded`
-/

namespace MapStyle

------------------------------------------------------------
-- Deleted statements
------------------------------------------------------------

namespace Body

mutual

/- The statement without `uncascaded` inside of its block. -/
def statementWithoutUncascaded : Statement → Statement
  | .mk name args block =>
      .mk name args (blockWithoutUncascaded block)

/- The statements without `uncascaded`, at every depth. -/
def withoutUncascaded : List Statement → List Statement
  | [] => []
  | statement :: rest =>
      if statement.name = "uncascaded" then
        withoutUncascaded rest
      else
        statementWithoutUncascaded statement
          :: withoutUncascaded rest

/- The same for a block; there may be none. -/
def blockWithoutUncascaded :
    Option (List Statement) → Option (List Statement)
  | none => none
  | some statements => some (withoutUncascaded statements)

end

theorem getD_blockWithoutUncascaded
    (block : Option (List Statement)) :
    (blockWithoutUncascaded block).getD [] =
      withoutUncascaded (block.getD []) := by
  cases block with
  | none => simp [blockWithoutUncascaded, withoutUncascaded]
  | some statements => simp [blockWithoutUncascaded]

theorem withoutUncascaded_nil :
    withoutUncascaded [] = [] := by
  rw [withoutUncascaded]

theorem withoutUncascaded_cons
    (args : List Argument)
    (block : Option (List Statement))
    (rest : List Statement) :
    withoutUncascaded (.mk "uncascaded" args block :: rest) =
      withoutUncascaded rest := by
  have hDeleted :
      (Statement.mk "uncascaded" args block).name =
        "uncascaded" := rfl
  rw [withoutUncascaded, if_pos hDeleted]

/-
  All other statements stay, with the same deleted inside of
  their blocks.
-/
theorem withoutUncascaded_cons_of_ne
    {name : String}
    (args : List Argument)
    (block : Option (List Statement))
    (rest : List Statement)
    (hName : name ≠ "uncascaded") :
    withoutUncascaded (.mk name args block :: rest) =
      .mk name args (blockWithoutUncascaded block)
        :: withoutUncascaded rest := by
  have hOther :
      (Statement.mk name args block).name ≠ "uncascaded" :=
    hName
  rw [withoutUncascaded, if_neg hOther,
    statementWithoutUncascaded]

end Body

theorem Statement.carriedAfter_nil (name : String) :
    carriedAfter name [] = [] := by
  unfold carriedAfter
  split
  · rfl
  · rfl

------------------------------------------------------------
-- Bare layers
------------------------------------------------------------

namespace Layer

/-
  The layer with another filter and without an uncascaded
  condition.
-/
def bare
    (layer : Layer)
    (filter : Option Expression) : Layer :=
  { layer with
    filter := filter
    uncascaded := none }

/- A new layer has no uncascaded condition. -/
theorem create_uncascaded
    (id : String)
    (options : List (String × Value))
    (sources : Sources) :
    (create id options sources).uncascaded = none := by
  rcases exists_create_eq id options sources with
    ⟨properties, hCreate⟩
  rw [hCreate]
  rfl

/- A layer that has no uncascaded condition is bare already. -/
theorem bare_self
    {layer : Layer}
    (h : layer.uncascaded = none) :
    layer.bare layer.filter = layer := by
  unfold bare
  rw [← h]

/- Arguments read nothing of a layer but its properties. -/
theorem Evaluates.congr
    {layer other : Layer}
    {args : List Argument}
    {values : List Value}
    (h : layer.Evaluates args values)
    (hProperties : other.properties = layer.properties) :
    other.Evaluates args values := by
  unfold Evaluates at h ⊢
  rw [Scope.evaluateArguments_congr hProperties]
  exact h

variable {layer : Layer}
variable (f : Option Expression)

/- An assignment succeeds on the bare layer if it does. -/
theorem set_bare
    {next : Layer}
    {name : String}
    {value : Value}
    (h : layer.set name value = .ok next) :
    (layer.bare f).set name value = .ok (next.bare f) ∧
      next.filter = layer.filter := by
  rcases set_cases h with
    ⟨condition, hActive, rfl⟩ | ⟨settled, hActive, hSet, rfl⟩
  · have hBare : (layer.bare f).active = some condition :=
      hActive
    refine ⟨?_, rfl⟩
    rw [set_of_active name value hBare]
    rfl
  · have hBare : (layer.bare f).active = none := hActive
    refine ⟨?_, rfl⟩
    rw [set_of_inactive name value hBare,
      settledWith_congr layer (layer.bare f) rfl rfl, hSet]
    rfl

/-
  The child of the bare layer is bare, and its filter is
  narrowed by the condition of the refinement only.
-/
theorem refine_bare_child
    (args : List Value)
    (sources : Sources) :
    ((layer.bare f).refine args sources).child =
      (layer.refine args sources).child.bare
        (Expression.andOptional
          (Expression.condition? (splitZoom args).2) f) := by
  have hBare :
      ∀ child : Layer,
        child.uncascaded = none →
          ∀ narrowed filter,
            ({ child with
              cascades := layer.cascades
              filter :=
                Expression.andOptional narrowed none } :
                Layer) =
              bare
                { child with
                  cascades := layer.cascades
                  filter := filter }
                narrowed := by
    intro child hChild narrowed filter
    rcases child with ⟨properties, _, settled, _, _, _, _, _⟩
    cases hChild
    rw [Expression.andOptional_none]
    rfl
  unfold refine
  apply hBare
  cases (splitZoom args).1 with
  | none => exact create_uncascaded _ _ _
  | some zoom => exact create_uncascaded _ _ _

theorem refine_condition
    (args : List Value)
    (sources : Sources) :
    (layer.refine args sources).condition =
      Expression.andOptional
        (Expression.condition? (splitZoom args).2)
        layer.filter := rfl

variable {f}
variable {carried : List Expression}

/-
  The child carries what the layer carries and the uncascaded
  condition of the layer.
-/
theorem carries_refine_child
    (args : List Value)
    (sources : Sources)
    (h : Expression.Carries carried layer.filter f) :
    Expression.Carries (carried ++ layer.uncascaded.toList)
      (layer.refine args sources).child.filter
      (Expression.andOptional
        (Expression.condition? (splitZoom args).2) f) := by
  rw [refine_child_filter, refine_condition]
  exact (h.narrow _).take _

/-
  An `uncascaded` statement changes nothing that the bare
  layer has.
-/
theorem Performs.bare_of_uncascaded
    {values : List Value}
    {next : Layer}
    (h : Performs "uncascaded" values layer next) :
    next.bare f = layer.bare f ∧
      next.filter = layer.filter := by
  generalize hName : "uncascaded" = name at h
  cases h with
  | uncascaded => exact ⟨rfl, rfl⟩
  | filter => exact absurd hName (by decide)
  | rename => exact absurd hName (by decide)
  | suppress => exact absurd hName (by decide)
  | assign hProperty _ =>
      have hKeyword :=
        Statement.not_mem_keywords_of_property hProperty
      rw [← hName] at hKeyword
      exact absurd (by decide) hKeyword
  | value _ _ hKeyword _ =>
      rw [← hName] at hKeyword
      exact absurd (by decide) hKeyword

/-
  Every other statement does to the bare layer what it does to
  the layer, and their filters differ as before unless it sets
  them.
-/
theorem Performs.bare
    {name : String}
    {values : List Value}
    {next : Layer}
    (h : Performs name values layer next)
    (hName : name ≠ "uncascaded")
    (hFilter : Expression.Carries carried layer.filter f) :
    ∃ g,
      Performs name values (layer.bare f) (next.bare g) ∧
        Expression.Carries
          (Statement.carriedAfter name carried) next.filter
          g := by
  have hKept :
      name ≠ "filter" →
        Expression.Carries
          (Statement.carriedAfter name carried) layer.filter
          f := by
    intro hOther
    unfold Statement.carriedAfter
    rw [if_neg hOther]
    exact hFilter
  cases h with
  | uncascaded => exact absurd rfl hName
  | filter =>
      exact ⟨_, .filter values _, .refl _⟩
  | rename _ hText =>
      exact ⟨f, .rename _ hText, hKept (by decide)⟩
  | suppress =>
      exact ⟨f, .suppress values _, hKept (by decide)⟩
  | assign hProperty hSet =>
      rcases set_bare f hSet with ⟨hBare, hSame⟩
      rw [hSame]
      refine ⟨f, .assign hProperty hBare, hKept ?_⟩
      rintro rfl
      exact
        Statement.not_mem_keywords_of_property hProperty
          (by decide)
  | value _ _ hKeyword hMeaning =>
      refine ⟨f, .value values _ hKeyword hMeaning, hKept ?_⟩
      rintro rfl
      exact hKeyword (by decide)

end Layer

------------------------------------------------------------
-- Matching siblings
------------------------------------------------------------

/-
  A sibling beside the one of the bare program: its name and
  its properties are the same, and its filter carries some
  conditions in addition.
-/
structure Layer.MatchesBut
    (carried : List Expression)
    (layer plain : Layer) : Prop where
  id : plain.id = layer.id
  properties : plain.properties = layer.properties
  filter :
    Expression.Carries carried layer.filter plain.filter

namespace Branch

theorem forall₂_mapIdx
    {α β γ : Type}
    {R : β → γ → Prop}
    (items : List α) :
    ∀ {first : Nat → α → β} {second : Nat → α → γ},
      (∀ index item, R (first index item) (second index item)) →
        List.Forall₂ R (items.mapIdx first)
          (items.mapIdx second) := by
  induction items with
  | nil =>
      intro first second _
      exact .nil
  | cons item rest ih =>
      intro first second hEach
      rw [List.mapIdx_cons, List.mapIdx_cons]
      exact
        .cons (hEach 0 item)
          (ih fun index item => hEach (index + 1) item)

/- The siblings of a branch, without those inside of it. -/
def ownSiblings : Branch → List Layer
  | .mk refinement _ _ child => siblings refinement child

/- The conditions that the filter of the parent carries. -/
def carried : Branch → List Expression
  | .mk _ carried _ _ => carried

/-
  Two branches whose siblings match, but for the conditions
  that the first one carries.
-/
def Matches (branch plain : Branch) : Prop :=
  List.Forall₂ (Layer.MatchesBut branch.carried)
    branch.ownSiblings plain.ownSiblings

/-
  The siblings of both children match if the filters of
  their parents differ by what is carried.
-/
theorem matches_bare
    {sources : Sources}
    {layer child : Layer}
    {carried : List Expression}
    {f : Option Expression}
    (values : List Value)
    (g : Option Expression)
    (inner plainInner : List Branch)
    (hFilter : Expression.Carries carried layer.filter f) :
    Matches
      (.mk (layer.refine values sources) carried inner child)
      (.mk ((layer.bare f).refine values sources) []
        plainInner (child.bare g)) := by
  unfold Matches ownSiblings siblings
  apply forall₂_mapIdx
  intro index cascade
  refine ⟨rfl, rfl, ?_⟩
  exact (hFilter.narrow _).extend (some cascade.condition)

end Branch

------------------------------------------------------------
-- Bodies
------------------------------------------------------------

/-
  A body without its `uncascaded` statements works on the bare
  layer as the body does on the layer.
-/
theorem Body.Derives.withoutUncascaded
    {sources : Sources}
    {statements : List Statement}
    {carried kept : List Expression}
    {layer last : Layer}
    {branches : List Branch}
    (h :
      Derives sources statements carried layer kept last
        branches) :
    ∀ {f : Option Expression},
      Expression.Carries carried layer.filter f →
        ∃ g plain,
          Derives sources (Body.withoutUncascaded statements)
              [] (layer.bare f) [] (last.bare g) plain ∧
            Expression.Carries kept last.filter g ∧
              List.Forall₂ Branch.Matches
                (Branch.nestedInAll branches)
                (Branch.nestedInAll plain) := by
  induction h with
  | nil _ layer =>
      intro f hFilter
      rw [withoutUncascaded_nil]
      exact ⟨f, [], .nil _ _, hFilter, .nil⟩
  | @plain name args values rest carried _ layer next last _
      hArgs hStep _ ih =>
      intro f hFilter
      by_cases hName : name = "uncascaded"
      · subst hName
        rcases hStep.bare_of_uncascaded (f := f) with
          ⟨hSame, hKept⟩
        rw [hKept] at ih
        rcases ih hFilter with
          ⟨g, plain, hDerives, hCarries, hMatches⟩
        rw [hSame] at hDerives
        rw [withoutUncascaded_cons]
        exact ⟨g, plain, hDerives, hCarries, hMatches⟩
      · rcases hStep.bare hName hFilter with
          ⟨narrowed, hBare, hNext⟩
        rcases ih hNext with
          ⟨g, plain, hDerives, hCarries, hMatches⟩
        refine ⟨g, plain, ?_, hCarries, hMatches⟩
        rw [withoutUncascaded_cons_of_ne args none rest hName,
          blockWithoutUncascaded]
        have hStarted :
            Statement.carriedAfter name [] = [] :=
          Statement.carriedAfter_nil name
        refine
          .plain (hArgs.congr rfl) hBare ?_
        rw [hStarted]
        exact hDerives
  | @refine args values block rest carried _ _ layer child _
      inner branches hArgs _ _ ihBody ihRest =>
      intro f hFilter
      rcases ihBody
          (Layer.carries_refine_child values sources hFilter)
        with ⟨g, plainInner, hInside, _, hInner⟩
      rcases ihRest hFilter with
        ⟨last, plain, hRest, hCarries, hMatches⟩
      rw [← Layer.refine_bare_child,
        ← getD_blockWithoutUncascaded] at hInside
      rw [withoutUncascaded_cons_of_ne args block rest
        (by decide)]
      refine
        ⟨last, _,
          .refine (hArgs.congr rfl) hInside hRest,
          hCarries, ?_⟩
      exact
        List.rel_append
          (List.rel_append hInner
            (.cons
              (Branch.matches_bare values g inner plainInner
                hFilter)
              .nil))
          hMatches
  | @cascade args values block rest carried _ _ layer reached _
      inner branches hArgs _ _ ihBody ihRest =>
      intro f hFilter
      rcases ihBody hFilter with
        ⟨g, plainInner, hInside, hReached, hInner⟩
      rcases ihRest hReached with
        ⟨last, plain, hRest, hCarries, hMatches⟩
      rw [← getD_blockWithoutUncascaded] at hInside
      rw [withoutUncascaded_cons_of_ne args block rest
        (by decide)]
      refine
        ⟨last, _,
          .cascade (hArgs.congr rfl) hInside
            hRest,
          hCarries, ?_⟩
      rw [Branch.nestedInAll_append, Branch.nestedInAll_append]
      exact List.rel_append hInner hMatches

------------------------------------------------------------
-- Programs
------------------------------------------------------------

/-
  Texts beside others that read as the same programs, but
  without their `uncascaded` statements.
-/
def Texts.DropsUncascaded (texts plain : Texts) : Prop :=
  ∀ file text program,
    texts file = .ok text →
      Program.read text = .ok program →
        ∃ plainText,
          plain file = .ok plainText ∧
            Program.read plainText =
              .ok (Body.withoutUncascaded program)

open Body (withoutUncascaded_nil withoutUncascaded_cons
  withoutUncascaded_cons_of_ne getD_blockWithoutUncascaded
  blockWithoutUncascaded)

theorem Program.Derives.withoutUncascaded
    {texts plainTexts : Texts}
    (hTexts : texts.DropsUncascaded plainTexts)
    {bound : Nat}
    {program : Program}
    {sources last : Sources}
    {trunks : List Trunk}
    (h : Derives texts bound program sources last trunks) :
    ∃ plain,
      Derives plainTexts bound
          (Body.withoutUncascaded program) sources last
          plain ∧
        List.Forall₂ Branch.Matches
          (Trunk.nestedInAll trunks)
          (Trunk.nestedInAll plain) := by
  induction h with
  | nil bound sources =>
      rw [withoutUncascaded_nil]
      exact ⟨[], .nil _ _, .nil⟩
  | source hArgs hOptions _ ih =>
      rcases ih with ⟨plain, hDerives, hMatches⟩
      rw [withoutUncascaded_cons_of_ne _ _ _ (by decide),
        blockWithoutUncascaded]
      exact ⟨plain, .source hArgs hOptions hDerives, hMatches⟩
  | @layer bound args values block id options rest sources _ _
      finished branches _ hArgs hOptions hBody _ ih =>
      rcases ih with ⟨plain, hDerives, hMatches⟩
      rcases hBody.withoutUncascaded (.refl _) with
        ⟨g, plainBranches, hPlain, _, hBranches⟩
      rw [Layer.bare_self (Layer.create_uncascaded _ _ _),
        ← getD_blockWithoutUncascaded] at hPlain
      rw [withoutUncascaded_cons_of_ne _ _ _ (by decide)]
      exact
        ⟨⟨finished.bare g, plainBranches⟩ :: plain,
          .layer hArgs hOptions hPlain hDerives,
          List.rel_append hBranches hMatches⟩
  | splice hArgs hFile hText hRead _ _ ihIncluded ihRest =>
      rcases ihIncluded with
        ⟨plainInner, hIncluded, hInner⟩
      rcases ihRest with ⟨plain, hDerives, hMatches⟩
      rcases hTexts _ _ _ hText hRead with
        ⟨plainText, hPlainText, hPlainRead⟩
      rw [withoutUncascaded_cons_of_ne _ _ _ (by decide),
        blockWithoutUncascaded]
      refine
        ⟨plainInner ++ plain,
          .splice hArgs hFile hPlainText hPlainRead hIncluded
            hDerives, ?_⟩
      unfold Trunk.nestedInAll at hInner hMatches ⊢
      rw [List.flatMap_append, List.flatMap_append]
      exact List.rel_append hInner hMatches
  | @property bound name args values rest _ _ _ hArgs hName _
      ih =>
      rcases ih with ⟨plain, hDerives, hMatches⟩
      by_cases hUncascaded : name = "uncascaded"
      · subst hUncascaded
        rw [withoutUncascaded_cons]
        exact ⟨plain, hDerives, hMatches⟩
      · rw [withoutUncascaded_cons_of_ne _ _ _ hUncascaded,
          blockWithoutUncascaded]
        exact
          ⟨plain, .property hArgs hName hDerives, hMatches⟩

end MapStyle
