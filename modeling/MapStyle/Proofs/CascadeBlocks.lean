import Mathlib
import MapStyle.Proofs.UncascadedReach

/-
  What cascade blocks leave behind. A program whose cascade
  blocks assign properties under a condition, and do nothing
  else, is compared with the one from which these blocks have
  been deleted: exactly the siblings are gone, and every other
  layer is the same but for its record of cascades.

  Key definitions include:
    * `Body.without`
    * `Body.cascadesAssign`
    * `Branch.children`
    * `Trunk.withoutSiblings`
    * `Program.Reaches`

  Main statements:
    * `Body.Derives.withoutCascades`
    * `Program.Derives.withoutCascades`
    * `Sheet.load_withoutCascades`
-/

namespace MapStyle

------------------------------------------------------------
-- Deleted statements
------------------------------------------------------------

namespace Body

mutual

/- The statement without a keyword inside of its block. -/
def statementWithout
    (keyword : String) : Statement → Statement
  | .mk name args block =>
      .mk name args (blockWithout keyword block)

/- The statements without a keyword, at every depth. -/
def without
    (keyword : String) : List Statement → List Statement
  | [] => []
  | statement :: rest =>
      if statement.name = keyword then
        without keyword rest
      else
        statementWithout keyword statement
          :: without keyword rest

/- The same for a block; there may be none. -/
def blockWithout
    (keyword : String) :
    Option (List Statement) → Option (List Statement)
  | none => none
  | some statements => some (without keyword statements)

end

variable {keyword : String}

theorem without_nil : without keyword [] = [] := by
  rw [without]

/- A block that is missing has no statements to delete. -/
theorem getD_blockWithout (block : Option (List Statement)) :
    (blockWithout keyword block).getD [] =
      without keyword (block.getD []) := by
  cases block with
  | none => rw [blockWithout, Option.getD_none, without_nil]
  | some statements =>
      rw [blockWithout, Option.getD_some, Option.getD_some]

/-
  A statement is deleted with its block; the others keep
  their own, with the same deleted inside.
-/
theorem without_cons_self
    (args : List Argument)
    (block : Option (List Statement))
    (rest : List Statement) :
    without keyword (.mk keyword args block :: rest) =
      without keyword rest := by
  have hDeleted :
      (Statement.mk keyword args block).name = keyword := rfl
  rw [without, if_pos hDeleted]

theorem without_cons_of_ne
    {name : String}
    (args : List Argument)
    (block : Option (List Statement))
    (rest : List Statement)
    (hName : name ≠ keyword) :
    without keyword (.mk name args block :: rest) =
      .mk name args (blockWithout keyword block)
        :: without keyword rest := by
  have hOther :
      (Statement.mk name args block).name ≠ keyword := hName
  rw [without, if_neg hOther, statementWithout]

end Body

/-
  The program without a keyword in the blocks of its
  statements. Outside of blocks the name sets a property of
  the document.
-/
def Program.without
    (keyword : String)
    (program : Program) : Program :=
  program.map (Body.statementWithout keyword)

theorem Program.without_cons
    {keyword : String}
    (name : String)
    (args : List Argument)
    (block : Option (List Statement))
    (rest : Program) :
    Program.without keyword (.mk name args block :: rest) =
      .mk name args (Body.blockWithout keyword block)
        :: Program.without keyword rest := by
  unfold without
  rw [List.map_cons, Body.statementWithout]

------------------------------------------------------------
-- Cascades that only assign
------------------------------------------------------------

/- Whether a statement assigns a property. -/
def Statement.assigns (statement : Statement) : Bool :=
  match Meaning.ofName statement.name with
  | .property _ => true
  | _ => false

/- A statement assigns if its name means a property. -/
theorem Statement.assigns_iff (statement : Statement) :
    statement.assigns = true ↔
      ∃ cls, Meaning.ofName statement.name = .property cls := by
  unfold assigns
  split
  · next cls hName => exact ⟨fun _ => ⟨cls, hName⟩, fun _ => rfl⟩
  · next hName =>
      constructor
      · intro h
        cases h
      · rintro ⟨cls, hProperty⟩
        exact absurd hProperty (hName cls)

/- No keyword is a property. -/
theorem Statement.not_mem_keywords_of_assigns
    {statement : Statement}
    (h : statement.assigns = true) :
    statement.name ∉ keywords := by
  rcases statement.assigns_iff.mp h with ⟨cls, hName⟩
  exact not_mem_keywords_of_property hName

namespace Body

mutual

/-
  Whether a statement, if it is a cascade, has arguments and a
  block of assignments, and else has such cascades inside.
-/
def statementCascadesAssign : Statement → Bool
  | .mk name args block =>
      if name = "cascade" then
        !args.isEmpty &&
          (block.getD []).all Statement.assigns
      else
        blockCascadesAssign block

/- Whether all cascades in statements are of this kind. -/
def cascadesAssign : List Statement → Bool
  | [] => true
  | statement :: rest =>
      statementCascadesAssign statement &&
        cascadesAssign rest

/- The same for a block; there may be none. -/
def blockCascadesAssign : Option (List Statement) → Bool
  | none => true
  | some statements => cascadesAssign statements

end

theorem blockCascadesAssign_eq
    (block : Option (List Statement)) :
    blockCascadesAssign block =
      cascadesAssign (block.getD []) := by
  cases block with
  | none => simp [blockCascadesAssign, cascadesAssign]
  | some statements => simp [blockCascadesAssign]

/- The blocks of cascades hold assignments and nothing else. -/
theorem cascadesAssign_cons_cascade
    (args : List Argument)
    (block : Option (List Statement))
    (rest : List Statement) :
    cascadesAssign (.mk "cascade" args block :: rest) = true ↔
      (args ≠ [] ∧
          ∀ statement ∈ block.getD [],
            statement.assigns = true) ∧
        cascadesAssign rest = true := by
  simp [cascadesAssign, statementCascadesAssign]

theorem cascadesAssign_cons_of_ne
    {name : String}
    (args : List Argument)
    (block : Option (List Statement))
    (rest : List Statement)
    (hName : name ≠ "cascade") :
    cascadesAssign (.mk name args block :: rest) = true ↔
      cascadesAssign (block.getD []) = true ∧
        cascadesAssign rest = true := by
  simp [cascadesAssign, statementCascadesAssign, hName,
    blockCascadesAssign_eq]

end Body

------------------------------------------------------------
-- Conditions of cascades
------------------------------------------------------------

theorem Scope.evaluateEach_ne_nil
    {scope : Scope}
    {args : List Argument}
    {values : List (Option String × Value)}
    (h : args ≠ [])
    (hValues :
      (evaluateEach scope args).outcome = .ok values) :
    values ≠ [] := by
  rcases args with _ | ⟨first, rest⟩
  · exact absurd rfl h
  · cases first with
    | positional t =>
        rw [evaluateEach] at hValues
        rcases Traced.bind_eq_ok.mp hValues with ⟨_, _, hRest⟩
        rcases Traced.bind_eq_ok.mp hRest with ⟨_, _, hPure⟩
        cases hPure
        exact List.cons_ne_nil _ _
    | keyword name t =>
        rw [evaluateEach] at hValues
        rcases Traced.bind_eq_ok.mp hValues with ⟨_, _, hRest⟩
        rcases Traced.bind_eq_ok.mp hRest with ⟨_, _, hPure⟩
        cases hPure
        exact List.cons_ne_nil _ _

/- A value without a keyword comes before all other values. -/
theorem Arguments.assemble_cons_positional
    (value : Value)
    (rest : List (Option String × Value)) :
    assemble ((none, value) :: rest) =
      value :: assemble rest := by
  unfold assemble
  dsimp only
  split
  · next hNone =>
      exact (congrArg (List.cons value) (if_pos hNone)).symm
  · next hSome =>
      exact (congrArg (List.cons value) (if_neg hSome)).symm

theorem Arguments.assemble_ne_nil
    {args : List (Option String × Value)}
    (h : args ≠ []) :
    assemble args ≠ [] := by
  rcases args with _ | ⟨⟨name?, value⟩, rest⟩
  · exact absurd rfl h
  · cases name? with
    | none =>
        rw [assemble_cons_positional]
        exact List.cons_ne_nil _ _
    | some name => simp [assemble]

/- A cascade with arguments has a condition. -/
theorem Layer.Evaluates.condition
    {layer : Layer}
    {args : List Argument}
    {values : List Value}
    (h : layer.Evaluates args values)
    (hArgs : args ≠ []) :
    ∃ condition,
      Expression.condition? values = some condition := by
  rcases Traced.bind_eq_ok.mp h with ⟨each, hEach, hAll⟩
  cases hAll
  apply Option.ne_none_iff_exists'.mp
  intro hNone
  have hNil := Expression.condition?_eq_none_iff.mp hNone
  exact
    Arguments.assemble_ne_nil
      (Scope.evaluateEach_ne_nil hArgs hEach) hNil

------------------------------------------------------------
-- Layers without cascades
------------------------------------------------------------

namespace Layer

/- The layer without a record of cascades. -/
def withoutCascades (layer : Layer) : Layer :=
  { layer with cascades := [] }

/- A new layer has no cascades to lose. -/
theorem create_withoutCascades
    (id : String)
    (options : List (String × Value))
    (sources : Sources) :
    (create id options sources).withoutCascades =
      create id options sources := by
  rcases exists_create_eq id options sources with
    ⟨properties, hCreate⟩
  rw [hCreate]
  rfl

variable {layer next : Layer}

/- The child begins with no condition active. -/
theorem refine_child_active
    (args : List Value)
    (sources : Sources) :
    (layer.refine args sources).child.active = none := by
  unfold refine
  dsimp only
  cases (splitZoom args).1 with
  | none => exact create_active _ _ _
  | some v => exact create_active _ _ _

/-
  Outside of cascades, an assignment does to the layer without
  them what it does to the layer.
-/
theorem set_withoutCascades
    {name : String}
    {value : Value}
    (hActive : layer.active = none)
    (h : layer.set name value = .ok next) :
    layer.withoutCascades.set name value =
        .ok next.withoutCascades ∧
      next.active = none := by
  rcases set_cases h with
    ⟨condition, hSome, _⟩ | ⟨settled, _, hSettled, rfl⟩
  · rw [hActive] at hSome
    cases hSome
  · have hNone : layer.withoutCascades.active = none := hActive
    refine ⟨?_, hActive⟩
    rw [set_of_inactive name value hNone,
      settledWith_congr layer layer.withoutCascades rfl rfl,
      hSettled]
    rfl

/- The same for every statement that takes no block. -/
theorem Performs.withoutCascades
    {name : String}
    {values : List Value}
    (h : Performs name values layer next)
    (hActive : layer.active = none) :
    Performs name values layer.withoutCascades
        next.withoutCascades ∧
      next.active = none := by
  cases h with
  | uncascaded => exact ⟨.uncascaded values _, hActive⟩
  | filter => exact ⟨.filter values _, hActive⟩
  | rename _ hText => exact ⟨.rename _ hText, hActive⟩
  | suppress => exact ⟨.suppress values _, hActive⟩
  | assign hName hSet =>
      rcases set_withoutCascades hActive hSet with
        ⟨hPlain, hNone⟩
      exact ⟨.assign hName hPlain, hNone⟩
  | value _ _ hKeyword hName =>
      exact ⟨.value values _ hKeyword hName, hActive⟩

/-
  Under a condition, a statement that assigns a property
  changes nothing but the cascades.
-/
theorem Performs.of_active
    {name : String}
    {cls : PropertyClass}
    {values : List Value}
    {condition : Expression}
    (h : Performs name values layer next)
    (hName : Meaning.ofName name = .property cls)
    (hActive : layer.active = some condition) :
    next.withoutCascades = layer.withoutCascades := by
  have hOther := Statement.not_mem_keywords_of_property hName
  cases h with
  | uncascaded => exact absurd (by decide) hOther
  | filter => exact absurd (by decide) hOther
  | rename => exact absurd (by decide) hOther
  | suppress => exact absurd (by decide) hOther
  | assign _ hSet =>
      rw [set_of_active _ _ hActive] at hSet
      cases hSet
      rfl
  | value => rfl

end Layer

------------------------------------------------------------
-- Children and siblings
------------------------------------------------------------

namespace Branch

mutual

/- The children of a branch, without siblings. -/
def children : Branch → List Layer
  | .mk _ _ inner child => childrenOfAll inner ++ [child]

/- The children of several branches, in order. -/
def childrenOfAll : List Branch → List Layer
  | [] => []
  | branch :: rest => children branch ++ childrenOfAll rest

end

theorem siblingsOfAll_append
    (first second : List Branch) :
    siblingsOfAll (first ++ second) =
      siblingsOfAll first ++ siblingsOfAll second :=
  List.flatMap_append

mutual

/- The children are among the layers, in the same order. -/
theorem children_sublist :
    (branch : Branch) →
      List.Sublist (children branch) (layers branch)
  | .mk refinement _ inner child => by
      rw [children, layers]
      exact
        (childrenOfAll_sublist inner).append
          ((List.nil_sublist _).cons_cons child)

/- Without the siblings, the order is the same. -/
theorem childrenOfAll_sublist :
    (branches : List Branch) →
      List.Sublist (childrenOfAll branches)
        (layersOfAll branches)
  | [] => by
      rw [childrenOfAll, layersOfAll]
  | branch :: rest => by
      rw [childrenOfAll, layersOfAll]
      exact
        (children_sublist branch).append
          (childrenOfAll_sublist rest)

end

theorem append_append_perm
    {α : Type}
    (a b c d : List α) :
    List.Perm ((a ++ b) ++ (c ++ d))
      ((a ++ c) ++ (b ++ d)) := by
  rw [List.append_assoc, List.append_assoc]
  apply List.Perm.append_left
  rw [← List.append_assoc, ← List.append_assoc]
  exact List.perm_append_comm.append_right d

mutual

/-
  The layers of a branch are its children and the siblings
  of all that is nested in it, in another order.
-/
theorem layers_perm :
    (branch : Branch) →
      List.Perm (layers branch)
        (children branch ++ siblingsOfAll (nested branch))
  | .mk refinement carried inner child => by
      have hOwn :
          siblingsOfAll [.mk refinement carried inner child] =
            siblings refinement child :=
        List.append_nil _
      rw [layers, children, nested, siblingsOfAll_append, hOwn]
      exact
        ((layersOfAll_perm inner).append_right _).trans
          (append_append_perm _ _ [child] _)

/- The layers are the children and the siblings. -/
theorem layersOfAll_perm :
    (branches : List Branch) →
      List.Perm (layersOfAll branches)
        (childrenOfAll branches ++
          siblingsOfAll (nestedInAll branches))
  | [] => by
      rw [childrenOfAll, layersOfAll, nestedInAll]
      exact List.Perm.nil
  | branch :: rest => by
      rw [childrenOfAll, layersOfAll, nestedInAll,
        siblingsOfAll_append]
      exact
        ((layers_perm branch).append
          (layersOfAll_perm rest)).trans
          (append_append_perm _ _ _ _)

end

end Branch

namespace Trunk

/- The layers of several trunks without the siblings. -/
def withoutSiblings (trunks : List Trunk) : List Layer :=
  trunks.flatMap fun trunk =>
    trunk.layer :: Branch.childrenOfAll trunk.branches

theorem withoutSiblings_append
    (first second : List Trunk) :
    withoutSiblings (first ++ second) =
      withoutSiblings first ++ withoutSiblings second :=
  List.flatMap_append

theorem layersOfAll_append
    (first second : List Trunk) :
    layersOfAll (first ++ second) =
      layersOfAll first ++ layersOfAll second :=
  List.flatMap_append

/- Without the siblings, the other layers keep their order. -/
theorem withoutSiblings_sublist (trunks : List Trunk) :
    List.Sublist (withoutSiblings trunks)
      (layersOfAll trunks) := by
  induction trunks with
  | nil => exact List.Sublist.refl _
  | cons trunk rest ih =>
      unfold withoutSiblings layersOfAll at ih ⊢
      rw [List.flatMap_cons, List.flatMap_cons]
      exact
        ((Branch.childrenOfAll_sublist trunk.branches).cons_cons
          trunk.layer).append ih

theorem layersOfAll_perm (trunks : List Trunk) :
    List.Perm (layersOfAll trunks)
      (withoutSiblings trunks ++ siblings trunks) := by
  induction trunks with
  | nil => exact List.Perm.nil
  | cons trunk rest ih =>
      have hBranches := Branch.layersOfAll_perm trunk.branches
      unfold withoutSiblings layersOfAll siblings nestedInAll
        at ih ⊢
      rw [List.flatMap_cons, List.flatMap_cons,
        List.flatMap_cons, Branch.siblingsOfAll_append]
      exact
        ((hBranches.cons trunk.layer).append ih).trans
          (Branch.append_append_perm (trunk.layer :: _) _ _ _)

end Trunk

------------------------------------------------------------
-- Bodies
------------------------------------------------------------

open Body (without without_nil without_cons_self
  without_cons_of_ne getD_blockWithout cascadesAssign
  cascadesAssign_cons_cascade cascadesAssign_cons_of_ne)

namespace Body.Derives

variable {sources : Sources}
variable {statements : List Statement}
variable {carried kept : List Expression}
variable {layer last : Layer}
variable {branches : List Branch}

/-
  Assignments under a condition derive nothing, and change
  nothing of the layer but its cascades.
-/
theorem of_assigns
    {condition : Expression}
    (h :
      Derives sources statements carried layer kept last
        branches)
    (hAssigns :
      ∀ statement ∈ statements, statement.assigns = true)
    (hActive : layer.active = some condition) :
    branches = [] ∧
      kept = carried ∧
        last.withoutCascades = layer.withoutCascades := by
  induction h with
  | nil _ _ => exact ⟨rfl, rfl, rfl⟩
  | @plain name args values rest carried _ layer next _ _ _
      hStep _ ih =>
      rcases (Statement.assigns_iff _).mp
          (hAssigns _ List.mem_cons_self) with ⟨cls, hName⟩
      have hSame := hStep.of_active hName hActive
      have hNext : next.active = some condition := by
        have hField := congrArg Layer.active hSame
        exact hField.trans hActive
      have hCarried :
          Statement.carriedAfter name carried = carried := by
        unfold Statement.carriedAfter
        rw [if_neg]
        rintro rfl
        have hOther : "filter" ∉ Statement.keywords :=
          Statement.not_mem_keywords_of_assigns
            (hAssigns _ List.mem_cons_self)
        exact hOther (by decide)
      have hRest :=
        ih (fun s hs => hAssigns s (List.mem_cons_of_mem _ hs))
          hNext
      rw [hCarried, hSame] at hRest
      exact hRest
  | refine _ _ _ _ _ =>
      have hOther : "on" ∉ Statement.keywords :=
        Statement.not_mem_keywords_of_assigns
          (hAssigns _ List.mem_cons_self)
      exact absurd (by decide) hOther
  | cascade _ _ _ _ _ =>
      have hOther : "cascade" ∉ Statement.keywords :=
        Statement.not_mem_keywords_of_assigns
          (hAssigns _ List.mem_cons_self)
      exact absurd (by decide) hOther

/-
  A body without its cascade blocks does to the layer without
  cascades what the body does to the layer, and derives the
  same children.
-/
theorem withoutCascades
    (h :
      Derives sources statements carried layer kept last
        branches) :
    cascadesAssign statements = true →
      layer.active = none →
        last.active = none ∧
          ∃ plain,
            Derives sources (without "cascade" statements)
                carried layer.withoutCascades kept
                last.withoutCascades plain ∧
              Branch.layersOfAll plain =
                (Branch.childrenOfAll branches).map
                  Layer.withoutCascades := by
  induction h with
  | nil _ _ =>
      intro _ hActive
      rw [without_nil]
      exact ⟨hActive, [], .nil _ _, rfl⟩
  | @plain name args values rest _ _ layer next _ _ hArgs hStep
      _ ih =>
      intro hCascades hActive
      have hOther := hStep.ne_block.2
      rcases hStep.withoutCascades hActive with
        ⟨hPlain, hNext⟩
      rcases ih
          ((cascadesAssign_cons_of_ne _ _ _ hOther).mp
            hCascades).2 hNext with
        ⟨hLast, plain, hDerives, hLayers⟩
      rw [without_cons_of_ne _ _ _ hOther, blockWithout]
      exact
        ⟨hLast, plain,
          .plain (hArgs.congr rfl) hPlain
            hDerives,
          hLayers⟩
  | @refine args values block rest _ _ _ layer child _ inner
      branches hArgs _ _ ihBody ihRest =>
      intro hCascades hActive
      rcases (cascadesAssign_cons_of_ne _ _ _
          (by decide)).mp hCascades with ⟨hBlock, hRest⟩
      rcases ihBody hBlock (Layer.refine_child_active _ _) with
        ⟨_, plainInner, hInside, hInner⟩
      rcases ihRest hRest hActive with
        ⟨hLast, plain, hDerives, hLayers⟩
      rw [← getD_blockWithout] at hInside
      rw [without_cons_of_ne _ _ _ (by decide)]
      refine
        ⟨hLast, _,
          .refine (hArgs.congr rfl)
            hInside hDerives,
          ?_⟩
      rw [Branch.layersOfAll, Branch.layers,
        Branch.childrenOfAll, Branch.children, hInner, hLayers,
        List.map_append, List.map_append]
      rfl
  | @cascade args values block rest _ _ _ layer reached _ inner
      branches hArgs hBody _ _ ihRest =>
      intro hCascades hActive
      rcases (cascadesAssign_cons_cascade _ _ _).mp hCascades
        with ⟨⟨hSome, hAssigns⟩, hRest⟩
      rcases hArgs.condition hSome with
        ⟨condition, hCondition⟩
      rcases hBody.of_assigns hAssigns hCondition with
        ⟨rfl, rfl, hSame⟩
      rcases ihRest hRest rfl with
        ⟨hLast, plain, hDerives, hLayers⟩
      have hEnded :
          ({ reached with active := none } :
              Layer).withoutCascades =
            layer.withoutCascades := by
        have hField :=
          congrArg (fun l : Layer => { l with active := none })
            hSame
        refine hField.trans ?_
        unfold Layer.withoutCascades
        rw [← hActive]
      rw [hEnded] at hDerives
      rw [without_cons_self]
      exact ⟨hLast, plain, hDerives, hLayers⟩

end Body.Derives

------------------------------------------------------------
-- Programs
------------------------------------------------------------

/-
  Texts beside others that read as the same programs, but
  without a keyword in their blocks.
-/
def Texts.Drops
    (keyword : String)
    (texts plain : Texts) : Prop :=
  ∀ file text program,
    texts file = .ok text →
      Program.read text = .ok program →
        ∃ plainText,
          plain file = .ok plainText ∧
            Program.read plainText =
              .ok (Program.without keyword program)

namespace Program

/-
  Whether all cascades of a program have arguments and blocks
  of assignments.
-/
def cascadesAssign (program : Program) : Bool :=
  program.all fun statement =>
    Body.cascadesAssign (statement.block.getD [])

/- A program, and what it includes at any depth. -/
inductive Reaches (texts : Texts) : Program → Program → Prop
  | refl (program : Program) :
      Reaches texts program program
  | splice
    {args : List Argument}
    {values : List Value}
    {file text : String}
    {program included other : Program}
    (hStatement : .mk "include" args none ∈ program)
    (hArgs : Evaluates args values)
    (hFile : Arguments.text values 0 "include" = .ok file)
    (hText : texts file = .ok text)
    (hRead : Program.read text = .ok included)
    (hOther : Reaches texts included other) :
      Reaches texts program other

/- All cascades assign, also those of included programs. -/
def CascadesAssign
    (texts : Texts)
    (program : Program) : Prop :=
  ∀ other,
    Reaches texts program other →
      other.cascadesAssign = true

namespace CascadesAssign

variable {texts : Texts}
variable {statement : Statement}
variable {program rest : Program}

theorem block
    (h : CascadesAssign texts (statement :: rest)) :
    Body.cascadesAssign (statement.block.getD []) = true :=
  List.all_eq_true.mp (h _ (.refl _)) _ List.mem_cons_self

theorem tail
    (h : CascadesAssign texts (statement :: rest)) :
    CascadesAssign texts rest := by
  intro other hReaches
  cases hReaches with
  | refl =>
      have hAll := List.all_eq_true.mp (h _ (.refl _))
      apply List.all_eq_true.mpr
      intro s hs
      exact hAll s (List.mem_cons_of_mem _ hs)
  | splice hStatement hArgs hFile hText hRead hOther =>
      exact
        h other
          (.splice (List.mem_cons_of_mem _ hStatement) hArgs
            hFile hText hRead hOther)

/- It is enough that the cascades of all texts assign. -/
theorem of_texts
    (hProgram : program.cascadesAssign = true)
    (hTexts :
      ∀ file text included,
        texts file = .ok text →
          Program.read text = .ok included →
            included.cascadesAssign = true) :
    CascadesAssign texts program := by
  intro other hReaches
  induction hReaches with
  | refl => exact hProgram
  | splice _ _ _ hText hRead _ ih =>
      exact ih (hTexts _ _ _ hText hRead)

end CascadesAssign

/-
  A program without its cascade blocks derives the same layers
  in the same order, but no siblings.
-/
theorem Derives.withoutCascades
    {texts plainTexts : Texts}
    (hTexts : texts.Drops "cascade" plainTexts)
    {bound : Nat}
    {program : Program}
    {sources last : Sources}
    {trunks : List Trunk}
    (h : Derives texts bound program sources last trunks) :
    CascadesAssign texts program →
      ∃ plain,
        Derives plainTexts bound
            (Program.without "cascade" program) sources last
            plain ∧
          Trunk.layersOfAll plain =
            (Trunk.withoutSiblings trunks).map
              Layer.withoutCascades := by
  induction h with
  | nil bound sources =>
      intro _
      exact ⟨[], .nil _ _, rfl⟩
  | source hArgs hOptions _ ih =>
      intro hCascades
      rcases ih hCascades.tail with ⟨plain, hDerives, hLayers⟩
      rw [without_cons, Body.blockWithout]
      exact ⟨plain, .source hArgs hOptions hDerives, hLayers⟩
  | @layer bound args values block id options rest sources _ _
      finished branches trunks hArgs hOptions hBody _ ih =>
      intro hCascades
      rcases ih hCascades.tail with ⟨plain, hDerives, hLayers⟩
      rcases hBody.withoutCascades hCascades.block
          (Layer.create_active _ _ _) with
        ⟨_, plainBranches, hPlain, hBranches⟩
      rw [Layer.create_withoutCascades, ← getD_blockWithout]
        at hPlain
      rw [without_cons]
      refine
        ⟨⟨finished.withoutCascades, plainBranches⟩ :: plain,
          .layer hArgs hOptions hPlain hDerives, ?_⟩
      unfold Trunk.layersOfAll Trunk.withoutSiblings
        at hLayers ⊢
      rw [List.flatMap_cons, List.flatMap_cons, hLayers,
        Trunk.layers, hBranches, List.map_append,
        List.map_cons]
  | splice hArgs hFile hText hRead _ _ ihIncluded ihRest =>
      intro hCascades
      have hInside : CascadesAssign texts _ :=
        fun other hReaches =>
          hCascades other
            (.splice List.mem_cons_self hArgs hFile hText hRead
              hReaches)
      rcases ihIncluded hInside with
        ⟨plainInner, hIncluded, hInner⟩
      rcases ihRest hCascades.tail with
        ⟨plain, hDerives, hLayers⟩
      rcases hTexts _ _ _ hText hRead with
        ⟨plainText, hPlainText, hPlainRead⟩
      rw [without_cons, Body.blockWithout]
      refine
        ⟨plainInner ++ plain,
          .splice hArgs hFile hPlainText hPlainRead hIncluded
            hDerives, ?_⟩
      rw [Trunk.layersOfAll_append,
        Trunk.withoutSiblings_append, List.map_append, hInner,
        hLayers]
  | property hArgs hName _ ih =>
      intro hCascades
      rcases ih hCascades.tail with ⟨plain, hDerives, hLayers⟩
      rw [without_cons, Body.blockWithout]
      exact ⟨plain, .property hArgs hName hDerives, hLayers⟩

end Program

------------------------------------------------------------
-- Texts
------------------------------------------------------------

namespace Sheet

/-
  A text whose cascade blocks have arguments and assign
  properties only, beside its program without these blocks:
  that one runs as well, and its layers are those of the text
  without exactly the siblings, in the same order. Each has
  the same name, properties, filter, render type and mark of
  being written.
-/
theorem load_withoutCascades
    {texts plainTexts : Texts}
    {source : String}
    {program : Program}
    {s t : Session}
    (hEmpty : s.sheet.extensions = .empty)
    (hRead : Program.read source = .ok program)
    (hCascades : Program.CascadesAssign texts program)
    (hTexts : texts.Drops "cascade" plainTexts)
    (hLoad : load texts source s = .ok () t) :
    ∃ trunks u,
      Program.Derives texts Program.maxIncludes program
          s.sheet.sources t.sheet.sources trunks ∧
        t.sheet.layers =
          s.sheet.layers ++ Trunk.layersOfAll trunks ∧
        List.Sublist (Trunk.withoutSiblings trunks)
          (Trunk.layersOfAll trunks) ∧
        List.Perm (Trunk.layersOfAll trunks)
          (Trunk.withoutSiblings trunks ++
            Trunk.siblings trunks) ∧
        Program.run plainTexts
            (Program.without "cascade" program) s =
          .ok () u ∧
        u.sheet.layers =
          s.sheet.layers ++
            (Trunk.withoutSiblings trunks).map
              Layer.withoutCascades := by
  rcases load_eq_ok.mp hLoad with ⟨found, hFound, hRun⟩
  rw [hRead] at hFound
  cases hFound
  rcases Program.yields_of_runWithin _ program hRun hEmpty with
    ⟨trunks, hYields⟩
  rcases hYields.derives.withoutCascades hTexts hCascades with
    ⟨plain, hDerives, hLayers⟩
  rcases hDerives.runWithin hEmpty rfl with
    ⟨u, hPlainRun, _, hPlain⟩
  have hPlainLayers := hPlain.layers
  rw [hLayers] at hPlainLayers
  exact
    ⟨trunks, u, hYields.derives, hYields.layers,
      Trunk.withoutSiblings_sublist trunks,
      Trunk.layersOfAll_perm trunks, hPlainRun, hPlainLayers⟩

/- The names of the layers of a program. -/
def namesOf?
    (texts : Texts)
    (program : Program) : Option (List String) :=
  match Program.run texts program Document.fresh with
  | .ok _ t => some (t.sheet.layers.map Layer.id)
  | .error _ _ => none

theorem namesOf?_eq_some
    {texts : Texts}
    {program : Program}
    {names : List String} :
    namesOf? texts program = some names ↔
      ∃ t,
        Program.run texts program Document.fresh = .ok () t ∧
          t.sheet.layers.map Layer.id = names := by
  unfold namesOf?
  cases Program.run texts program Document.fresh with
  | ok _ t => simp
  | error e t => simp

/- Cascades at two depths, and another in an included text. -/
def crossings : String :=
  "layer :a \x7b
    cascade j \x7b line_width 1 \x7d
    on \x7b
      cascade k \x7b line_width 2 \x7d
      on
    \x7d
  \x7d
  include :b"

def crossed : String :=
  "layer :b \x7b cascade k \x7b line_width 3 \x7d
    on
  \x7d"

def uncrossed : String :=
  "layer :b \x7b on \x7d"

theorem read_uncrossed :
    Program.read uncrossed =
      (Program.read crossed).map
        (Program.without "cascade") := by
  cbv

theorem ofList_b
    {file text found : String}
    (h : Texts.ofList [("b", text)] file = .ok found) :
    file = "b" ∧ found = text := by
  unfold Texts.ofList at h
  by_cases hFile : file = "b"
  · subst hFile
    cases h
    exact ⟨rfl, rfl⟩
  · have hOther : (file == "b") = false := beq_false_of_ne hFile
    rw [List.lookup_cons, hOther] at h
    cases h

theorem drops_crossed :
    Texts.Drops "cascade" (Texts.ofList [("b", crossed)])
      (Texts.ofList [("b", uncrossed)]) := by
  intro file text program hText hRead
  rcases ofList_b hText with ⟨rfl, rfl⟩
  refine ⟨uncrossed, rfl, ?_⟩
  rw [read_uncrossed, hRead]
  rfl

/-
  The block in a block and the included block keep their
  names, and all siblings are gone.
-/
theorem load_withoutCascades_crossings :
    ∃ t program trunks u,
      load (Texts.ofList [("b", crossed)]) crossings
          Document.fresh =
        .ok () t ∧
        t.sheet.layers.map Layer.id =
          ["a", "a__1__1", "a__1__1__a", "a__1__1__b", "a__1",
            "a__1__a", "b", "b__1", "b__1__a"] ∧
        Program.read crossings = .ok program ∧
        Program.CascadesAssign
          (Texts.ofList [("b", crossed)]) program ∧
        Texts.Drops "cascade" (Texts.ofList [("b", crossed)])
          (Texts.ofList [("b", uncrossed)]) ∧
        Program.run (Texts.ofList [("b", uncrossed)])
            (Program.without "cascade" program)
            Document.fresh =
          .ok () u ∧
        u.sheet.layers.map Layer.id =
          ["a", "a__1__1", "a__1", "b", "b__1"] ∧
        t.sheet.layers = Trunk.layersOfAll trunks ∧
        u.sheet.layers =
          (Trunk.withoutSiblings trunks).map
            Layer.withoutCascades := by
  have hAll :
      (Program.read crossings).toOption.map (fun program =>
          (program.cascadesAssign,
            namesOf? (Texts.ofList [("b", crossed)]) program,
            namesOf? (Texts.ofList [("b", uncrossed)])
              (Program.without "cascade" program))) =
        some
          (true,
            some
              ["a", "a__1__1", "a__1__1__a", "a__1__1__b",
                "a__1", "a__1__a", "b", "b__1", "b__1__a"],
            some ["a", "a__1__1", "a__1", "b", "b__1"]) := by
    decide +kernel
  have hIncluded :
      (Program.read crossed).toOption.map
          Program.cascadesAssign =
        some true := by
    decide +kernel
  cases hRead : Program.read crossings with
  | error e =>
      rw [hRead] at hAll
      cases hAll
  | ok program =>
      rw [hRead] at hAll
      rcases Prod.mk.inj (Option.some.inj hAll) with
        ⟨hProgram, hNames⟩
      rcases Prod.mk.inj hNames with ⟨hWhole, hPlain⟩
      rcases namesOf?_eq_some.mp hWhole with ⟨t, hRun, hIds⟩
      rcases namesOf?_eq_some.mp hPlain with
        ⟨u, hPlainRun, hPlainIds⟩
      have hCascades :
          Program.CascadesAssign
            (Texts.ofList [("b", crossed)]) program := by
        apply Program.CascadesAssign.of_texts hProgram
        intro file text included hText hFound
        rcases ofList_b hText with ⟨rfl, rfl⟩
        rw [hFound] at hIncluded
        exact Option.some.inj hIncluded
      have hLoad := load_eq_ok.mpr ⟨program, hRead, hRun⟩
      rcases load_withoutCascades rfl hRead hCascades
          drops_crossed hLoad with
        ⟨trunks, v, _, hLayers, _, _, hPlainRun', hPlainLayers⟩
      rw [hPlainRun] at hPlainRun'
      cases hPlainRun'
      exact
        ⟨t, program, trunks, u, hLoad, hIds, rfl, hCascades,
          drops_crossed, hPlainRun, hPlainIds, hLayers,
          hPlainLayers⟩

end Sheet

end MapStyle
