import MapStyle.Proofs.Uncascaded

/-
  Which siblings an uncascaded condition reaches: those of an
  `on` block inside of another one whose parent had the
  condition, unless a filter has been set in between. All
  other siblings are the same without it.

  Key definitions include:
    * `Trunk.siblings`
    * `Trunk.reaching`

  Main statements:
    * `Branch.filterConjuncts_siblingsOfAll_iff`
    * `Branch.filter_siblingsOfAll_iff`
    * `Sheet.load_withoutUncascaded`
-/

namespace MapStyle

open Expression (Carries conjuncts conjunctsOf)

------------------------------------------------------------
-- Matching layers
------------------------------------------------------------

/- What matching items have in common. -/
theorem List.map_eq_of_forall₂
    {α β : Type}
    {R : α → α → Prop}
    {f : α → β}
    (hEach : ∀ a b, R a b → f b = f a)
    {first second : List α}
    (h : List.Forall₂ R first second) :
    second.map f = first.map f := by
  induction h with
  | nil => rfl
  | cons hFirst _ ih =>
      rw [List.map_cons, List.map_cons, hEach _ _ hFirst, ih]

namespace Layer

variable {carried : List Expression}
variable {layers plain : List Layer}

/- The conditions that the filters of layers consist of. -/
def filterConjuncts (layers : List Layer) :
    List (List Value) :=
  layers.map fun layer => conjuncts layer.filter

theorem filterConjuncts_append
    (first second : List Layer) :
    filterConjuncts (first ++ second) =
      filterConjuncts first ++ filterConjuncts second :=
  List.map_append

theorem filterConjuncts_eq_iff
    (h : List.Forall₂ (MatchesBut carried) layers plain) :
    filterConjuncts plain = filterConjuncts layers ↔
      layers = [] ∨ ∀ e ∈ carried, conjunctsOf e = [] := by
  induction h with
  | nil => simp [filterConjuncts]
  | cons hFirst _ ih =>
      have hIff := hFirst.filter.conjuncts_eq_iff
      unfold filterConjuncts at ih ⊢
      rw [List.map_cons, List.map_cons, List.cons_eq_cons]
      constructor
      · rintro ⟨hSame, _⟩
        exact Or.inr (hIff.mp hSame.symm)
      · rintro (hNil | hEach)
        · cases hNil
        · exact ⟨(hIff.mpr hEach).symm, ih.mpr (Or.inr hEach)⟩

end Layer

------------------------------------------------------------
-- Matching branches
------------------------------------------------------------

namespace Branch

/-
  The conditions that reach the siblings of a branch, if it
  has siblings.
-/
def reaching (branch : Branch) : List Expression :=
  if branch.ownSiblings.isEmpty then [] else branch.carried

/- The siblings of several branches, in order. -/
def siblingsOfAll (branches : List Branch) : List Layer :=
  branches.flatMap ownSiblings

/- The conditions that reach the siblings of any branch. -/
def reachingAny (branches : List Branch) : List Expression :=
  branches.flatMap reaching

/- A sibling has the same name and the same properties. -/
def SameBag (layer plain : Layer) : Prop :=
  plain.id = layer.id ∧ plain.properties = layer.properties

namespace Matches

variable {branch plain : Branch}

theorem sameBag
    (h : Matches branch plain) :
    List.Forall₂ SameBag branch.ownSiblings
      plain.ownSiblings :=
  h.imp fun _ _ hPair => ⟨hPair.id, hPair.properties⟩

/-
  If no condition reaches the siblings of a branch, their
  filters are as they were.
-/
theorem filter_eq
    (h : Matches branch plain)
    (hReaching : branch.reaching = []) :
    plain.ownSiblings.map Layer.filter =
      branch.ownSiblings.map Layer.filter := by
  unfold Matches at h
  unfold reaching at hReaching
  by_cases hNone : branch.ownSiblings.isEmpty
  · rw [List.isEmpty_iff.mp hNone] at h ⊢
    rw [List.forall₂_nil_left_iff.mp h]
  · rw [if_neg hNone] at hReaching
    rw [hReaching] at h
    exact
      List.map_eq_of_forall₂
        (fun _ _ hPair =>
          (hPair.filter.eq_of_nil rfl).symm)
        h

theorem filterConjuncts_eq_iff
    (h : Matches branch plain) :
    Layer.filterConjuncts plain.ownSiblings =
        Layer.filterConjuncts branch.ownSiblings ↔
      ∀ e ∈ branch.reaching, conjunctsOf e = [] := by
  rw [Layer.filterConjuncts_eq_iff h]
  unfold reaching
  by_cases hNone : branch.ownSiblings.isEmpty
  · rw [if_pos hNone]
    simp [List.isEmpty_iff.mp hNone]
  · rw [if_neg hNone]
    constructor
    · rintro (hEmpty | hEach)
      · exact absurd (List.isEmpty_iff.mpr hEmpty) hNone
      · exact hEach
    · exact Or.inr

end Matches

variable {branches plain : List Branch}

/-
  Names and properties of the siblings do not depend on the
  deleted statements.
-/
theorem sameBag_siblingsOfAll
    (h : List.Forall₂ Matches branches plain) :
    List.Forall₂ SameBag (siblingsOfAll branches)
      (siblingsOfAll plain) :=
  List.rel_flatMap h fun _ _ hMatches => hMatches.sameBag

theorem filter_siblingsOfAll
    (h : List.Forall₂ Matches branches plain)
    (hReaching : reachingAny branches = []) :
    (siblingsOfAll plain).map Layer.filter =
      (siblingsOfAll branches).map Layer.filter := by
  unfold reachingAny at hReaching
  unfold siblingsOfAll
  induction h with
  | nil => rfl
  | cons hFirst _ ih =>
      rw [List.flatMap_cons, List.append_eq_nil_iff]
        at hReaching
      rw [List.flatMap_cons, List.flatMap_cons,
        List.map_append, List.map_append,
        hFirst.filter_eq hReaching.1, ih hReaching.2]

/-
  A condition shows in the filter of a sibling exactly if it
  has a conjunct.
-/
theorem filterConjuncts_siblingsOfAll_iff
    (h : List.Forall₂ Matches branches plain) :
    Layer.filterConjuncts (siblingsOfAll plain) =
        Layer.filterConjuncts (siblingsOfAll branches) ↔
      ∀ e ∈ reachingAny branches, conjunctsOf e = [] := by
  unfold siblingsOfAll reachingAny
  induction h with
  | nil => simp
  | @cons branch bare rest bareRest hFirst _ ih =>
      have hLength :
          (Layer.filterConjuncts bare.ownSiblings).length =
            (Layer.filterConjuncts
              branch.ownSiblings).length := by
        unfold Layer.filterConjuncts
        rw [List.length_map, List.length_map,
          hFirst.sameBag.length_eq]
      simp only [List.flatMap_cons, List.forall_mem_append,
        Layer.filterConjuncts_append]
      constructor
      · intro hSame
        rcases List.append_inj hSame hLength with
          ⟨hHead, hTail⟩
        exact
          ⟨hFirst.filterConjuncts_eq_iff.mp hHead,
            ih.mp hTail⟩
      · rintro ⟨hHead, hTail⟩
        rw [hFirst.filterConjuncts_eq_iff.mpr hHead,
          ih.mpr hTail]

/-
  If every condition that reaches siblings consists of some
  condition, the filters of the siblings are the same exactly
  if none reaches them.
-/
theorem filter_siblingsOfAll_iff
    (h : List.Forall₂ Matches branches plain)
    (hSome :
      ∀ e ∈ reachingAny branches, conjunctsOf e ≠ []) :
    (siblingsOfAll plain).map Layer.filter =
        (siblingsOfAll branches).map Layer.filter ↔
      reachingAny branches = [] := by
  constructor
  · intro hSame
    have hConjuncts :
        Layer.filterConjuncts (siblingsOfAll plain) =
          Layer.filterConjuncts (siblingsOfAll branches) := by
      have hMapped := congrArg (List.map conjuncts) hSame
      rw [List.map_map, List.map_map] at hMapped
      exact hMapped
    have hNone :=
      (filterConjuncts_siblingsOfAll_iff h).mp hConjuncts
    exact
      List.eq_nil_iff_forall_not_mem.mpr fun e hMem =>
        hSome e hMem (hNone e hMem)
  · exact filter_siblingsOfAll h

end Branch

------------------------------------------------------------
-- Texts
------------------------------------------------------------

/- All siblings of several trunks, in order. -/
def Trunk.siblings (trunks : List Trunk) : List Layer :=
  Branch.siblingsOfAll (nestedInAll trunks)

/- The conditions that reach any of these siblings. -/
def Trunk.reaching (trunks : List Trunk) : List Expression :=
  Branch.reachingAny (nestedInAll trunks)

namespace Sheet

/-
  A text beside its program without `uncascaded` statements,
  which runs as well. The siblings have the same names and
  properties, and each filter carries the conditions that
  reach it. The filters have the same conjuncts exactly if all
  conditions that reach a sibling are empty conjunctions; and
  if none of these is an empty conjunction, the filters are
  the same exactly if no condition reaches a sibling.
-/
theorem load_withoutUncascaded
    {texts plainTexts : Texts}
    {source : String}
    {s t : Session}
    (hEmpty : s.sheet.extensions = .empty)
    (hTexts : texts.DropsUncascaded plainTexts)
    (hLoad : load texts source s = .ok () t) :
    ∃ program trunks u plain,
      Program.read source = .ok program ∧
        Program.Derives texts Program.maxIncludes program
          s.sheet.sources t.sheet.sources trunks ∧
        t.sheet.layers =
          s.sheet.layers ++ Trunk.layersOfAll trunks ∧
        Program.run plainTexts
            (Body.withoutUncascaded program) s =
          .ok () u ∧
        Program.Derives plainTexts Program.maxIncludes
          (Body.withoutUncascaded program) s.sheet.sources
          u.sheet.sources plain ∧
        u.sheet.layers =
          s.sheet.layers ++ Trunk.layersOfAll plain ∧
        List.Forall₂ Branch.SameBag (Trunk.siblings trunks)
          (Trunk.siblings plain) ∧
        List.Forall₂ Branch.Matches
          (Trunk.nestedInAll trunks)
          (Trunk.nestedInAll plain) ∧
        (Layer.filterConjuncts (Trunk.siblings plain) =
            Layer.filterConjuncts (Trunk.siblings trunks) ↔
          ∀ e ∈ Trunk.reaching trunks,
            conjunctsOf e = []) ∧
        ((∀ e ∈ Trunk.reaching trunks, conjunctsOf e ≠ []) →
          ((Trunk.siblings plain).map Layer.filter =
              (Trunk.siblings trunks).map Layer.filter ↔
            Trunk.reaching trunks = [])) := by
  rcases load_eq_ok.mp hLoad with ⟨program, hRead, hRun⟩
  rcases Program.yields_of_runWithin _ program hRun hEmpty with
    ⟨trunks, hYields⟩
  rcases hYields.derives.withoutUncascaded hTexts with
    ⟨plain, hDerives, hMatches⟩
  rcases hDerives.runWithin hEmpty rfl with
    ⟨u, hPlainRun, _, hPlain⟩
  exact
    ⟨program, trunks, u, plain, hRead, hYields.derives,
      hYields.layers, hPlainRun, hPlain.derives,
      hPlain.layers, Branch.sameBag_siblingsOfAll hMatches,
      hMatches,
      Branch.filterConjuncts_siblingsOfAll_iff hMatches,
      Branch.filter_siblingsOfAll_iff hMatches⟩

/-
  A cascade after an uncascaded condition, and an `on` block
  inside of another one.
-/
def inheriting : String :=
  "layer :a \x7b
    line_width 1
    uncascaded x == 1
    cascade k == 2 \x7b line_color :red \x7d
    on \x7b on \x7b line_width 2 \x7d \x7d
  \x7d"

theorem load_withoutUncascaded_inheriting :
    ∃ t program trunks u plain,
      load (Texts.ofList []) inheriting Document.fresh =
          .ok () t ∧
        t.sheet.layers.map Layer.id =
          ["a", "a__1__1", "a__1__1__a", "a__1", "a__1__a"] ∧
        Program.read inheriting = .ok program ∧
        Program.run (Texts.ofList [])
            (Body.withoutUncascaded program) Document.fresh =
          .ok () u ∧
        t.sheet.layers = Trunk.layersOfAll trunks ∧
        u.sheet.layers = Trunk.layersOfAll plain ∧
        List.Forall₂ Branch.Matches
          (Trunk.nestedInAll trunks)
          (Trunk.nestedInAll plain) := by
  have hIds :
      (layersOf? inheriting).map (List.map Layer.id) =
        some
          ["a", "a__1__1", "a__1__1__a", "a__1",
            "a__1__a"] := by
    decide +kernel
  rcases Option.map_eq_some_iff.mp hIds with
    ⟨layers, hLayers, hNames⟩
  rcases layersOf?_eq_some.mp hLayers with ⟨t, hLoad, rfl⟩
  have hTexts :
      (Texts.ofList []).DropsUncascaded (Texts.ofList []) := by
    intro file text program hText
    cases hText
  rcases load_withoutUncascaded rfl hTexts hLoad with
    ⟨program, trunks, u, plain, hRead, _, hTrunks, hRun, _,
      hPlain, _, hMatches, _⟩
  exact
    ⟨t, program, trunks, u, plain, hLoad, hNames, hRead, hRun,
      hTrunks, hPlain, hMatches⟩

/- The filter of the layer with a name, as text. -/
def filterOf
    (name : String)
    (layers : List Layer) : Option String := do
  let layer ← layers.find? fun layer => layer.id = name
  let filter ← layer.filter
  pure filter.text

/- The layers of a text without `uncascaded` statements. -/
def bareLayersOf? (source : String) : Option (List Layer) :=
  match Program.read source with
  | .error _ => none
  | .ok program =>
      match
        Program.run (Texts.ofList [])
          (Body.withoutUncascaded program) Document.fresh
      with
      | .ok _ u => some u.sheet.layers
      | .error _ _ => none

/-
  The sibling of the inner `on` block has the uncascaded
  condition in its filter, which it lacks without the
  statement.
-/
theorem uncascaded_reaches_sibling :
    (layersOf? inheriting).map (filterOf "a__1__1__a") =
        some
          (some
            "[\"all\",[\"==\",[\"get\",\"x\"],1],[\"==\",[\"get\",\"k\"],2]]") ∧
      (bareLayersOf? inheriting).map
          (filterOf "a__1__1__a") =
        some (some "[\"==\",[\"get\",\"k\"],2]") := by
  constructor
  · decide +kernel
  · decide +kernel

end Sheet

end MapStyle
