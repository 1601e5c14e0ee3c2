import MapStyle.Proofs.LayerOrder
import MapStyle.Proofs.Naming
import MapStyle.Proofs.Splicing

/-
  The names of the layers of a program that names none by
  hand. Below a layer, each name tells the way to its layer:
  which child of which child, and which sibling of it. So the
  names are distinct if those outside of all blocks are, and
  contain no two underscores in a row.

  Key definitions include:
    * `Statement.Nameless`
    * `Branch.paths`
    * `Branch.Named`
    * `Statement.layerId?`

  Main statements:
    * `Body.Derives.named`
    * `Branch.Named.names`
    * `Branch.Named.paths_nodup`
    * `Sheet.load_ids_nodup`
-/

namespace MapStyle

------------------------------------------------------------
-- Statements without names
------------------------------------------------------------

/- A statement that names no layer, nor does one inside of it. -/
inductive Statement.Nameless : Statement → Prop
  | mk
    {name : String}
    {args : List Argument}
    {block : Option (List Statement)}
    (hName : name ≠ "id")
    (hBlock :
      ∀ statement ∈ block.getD [], Statement.Nameless statement) :
      Statement.Nameless (.mk name args block)

namespace Statement

theorem nameless_mk
    {name : String}
    {args : List Argument}
    {block : Option (List Statement)} :
    Nameless (.mk name args block) ↔
      name ≠ "id" ∧
        ∀ statement ∈ block.getD [], statement.Nameless := by
  constructor
  · rintro ⟨hName, hBlock⟩
    exact ⟨hName, hBlock⟩
  · rintro ⟨hName, hBlock⟩
    exact .mk hName hBlock

mutual

/- Whether a statement names no layer can be computed. -/
def decideNameless :
    (statement : Statement) → Decidable statement.Nameless
  | .mk name args none =>
      decidable_of_iff (name ≠ "id") (by simp [nameless_mk])
  | .mk name args (some statements) =>
      match decideAllNameless statements with
      | isTrue hAll =>
          decidable_of_iff (name ≠ "id") (by
            rw [nameless_mk]
            exact (and_iff_left hAll).symm)
      | isFalse hSome =>
          isFalse fun h => hSome (nameless_mk.mp h).2

def decideAllNameless :
    (statements : List Statement) →
      Decidable (∀ statement ∈ statements, statement.Nameless)
  | [] => isTrue (by simp)
  | statement :: rest =>
      match decideNameless statement, decideAllNameless rest with
      | isTrue hFirst, isTrue hRest =>
          isTrue (List.forall_mem_cons.mpr ⟨hFirst, hRest⟩)
      | isFalse hFirst, _ =>
          isFalse fun h => hFirst (List.forall_mem_cons.mp h).1
      | _, isFalse hRest =>
          isFalse fun h => hRest (List.forall_mem_cons.mp h).2

end

instance (statement : Statement) : Decidable statement.Nameless :=
  decideNameless statement

end Statement

namespace Layer

theorem id_put_of_ne
    (layer : Layer)
    {key : String}
    (value : Value)
    (h : key ≠ "id") :
    (layer.put key value).id = layer.id := by
  unfold id put
  dsimp only
  rw [Bag.get?_insert, if_neg h.symm]

/- A new layer has its name and no children. -/
theorem create_id_children
    (id : String)
    (options : List (String × Value))
    (sources : Sources) :
    (create id options sources).id = id ∧
      (create id options sources).children = 0 := by
  let kept :=
    options.map fun o => (Spelling.underscored o.1, o.2)
  let begun :=
    ofProperties ((Bag.ofList kept).insert "id" (.text id))
  have hBegun : begun.id = id := by
    have hGet : begun.properties.get? "id" = some (.text id) :=
      (Bag.get?_insert _ _ _ _).trans (if_pos rfl)
    unfold Layer.id
    rw [hGet]
  have hCreate :
      create id options sources =
        (begun.withSource sources).withSourceLayer id sources :=
    rfl
  have hSource :
      (begun.withSource sources).id = id ∧
        (begun.withSource sources).children = 0 := by
    rcases begun.withSource_cases sources with
      hSame | ⟨value, hPut⟩
    · rw [hSame]
      exact ⟨hBegun, rfl⟩
    · rw [hPut, id_put_of_ne _ _ (by decide)]
      exact ⟨hBegun, rfl⟩
  rw [hCreate]
  rcases withSourceLayer_cases (begun.withSource sources) id
      sources with
    hSame | ⟨value, hPut⟩
  · rw [hSame]
    exact hSource
  · rw [hPut, id_put_of_ne _ _ (by decide)]
    exact hSource

/- A child is named after its parent and its number. -/
theorem refine_child_id_children
    (layer : Layer)
    (args : List Value)
    (sources : Sources) :
    (layer.refine args sources).child.id =
        layer.id ++ "__" ++ countText (layer.children + 1) ∧
      (layer.refine args sources).child.children = 0 := by
  have hDerived :=
    create_id_children
      (layer.id ++ "__" ++ countText (layer.children + 1))
      layer.properties.entries sources
  unfold refine
  dsimp only
  cases (splitZoom args).1 with
  | none => exact hDerived
  | some zoom =>
      refine ⟨?_, hDerived.2⟩
      have hPut :=
        id_put_of_ne
          (layer.derive
            (layer.id ++ "__" ++ countText (layer.children + 1))
            sources)
          zoom (by decide : "zoom" ≠ "id")
      exact hPut.trans hDerived.1

/- Statements without names keep the name and the children. -/
theorem Performs.id_children
    {name : String}
    {args : List Value}
    {layer next : Layer}
    (h : Performs name args layer next)
    (hName : name ≠ "id") :
    next.id = layer.id ∧ next.children = layer.children := by
  cases h with
  | uncascaded => exact ⟨rfl, rfl⟩
  | filter => exact ⟨rfl, rfl⟩
  | rename => exact absurd rfl hName
  | suppress => exact ⟨rfl, rfl⟩
  | value => exact ⟨rfl, rfl⟩
  | assign hMeaning hSet =>
      have hKey : Spelling.underscored name ≠ "id" := by
        intro hId
        have hAssignable :=
          Meaning.isAssignable_of_property hMeaning
        rw [hId] at hAssignable
        exact hAssignable.not_mem_hidden (by decide)
      rcases set_cases hSet with
        ⟨condition, _, rfl⟩ | ⟨settled, _, _, rfl⟩
      · exact ⟨rfl, rfl⟩
      · exact ⟨id_put_of_ne _ _ hKey, rfl⟩

end Layer

------------------------------------------------------------
-- Paths
------------------------------------------------------------

namespace Branch

/- The paths of siblings, from the child that they stand by. -/
def siblingPaths (count : Nat) : List (List String) :=
  (List.range count).map fun index =>
    [Naming.siblingSegment index]

mutual

/- The paths of the layers of a branch, from its parent. -/
def paths : Branch → List (List String)
  | .mk refinement _ inner _ =>
      (pathsOfAll inner
          ++ [] :: siblingPaths
            refinement.parent.cascades.length).map
        fun path => path ++ [countText refinement.parent.children]

/- The paths of the layers of several branches. -/
def pathsOfAll : List Branch → List (List String)
  | [] => []
  | branch :: rest => paths branch ++ pathsOfAll rest

end

/-
  The children of a layer have numbers that rise from one
  bound to another, they are named after it, their siblings
  after them, and it is so inside of them as well.
-/
inductive Named :
    String → Nat → List Branch → Nat → Prop
  | nil
    (id : String)
    {low high : Nat}
    (h : low ≤ high) :
      Named id low [] high
  | cons
    {id : String}
    {low high last : Nat}
    {refinement : Refinement}
    {carried : List Expression}
    {inner rest : List Branch}
    {child : Layer}
    (hNumber : low < refinement.parent.children)
    (hChild :
      child.id =
        id ++ "__" ++ countText refinement.parent.children)
    (hSiblings : NamesSiblings refinement child)
    (hInner : Named child.id 0 inner last)
    (hRest : Named id refinement.parent.children rest high) :
      Named id low (.mk refinement carried inner child :: rest)
        high

namespace Named

variable {id : String}
variable {low middle high : Nat}

theorem mono
    {branches : List Branch}
    (h : Named id middle branches high)
    (hLow : low ≤ middle) :
    Named id low branches high := by
  cases h with
  | nil _ h => exact .nil id (Nat.le_trans hLow h)
  | cons hNumber hChild hSiblings hInner hRest =>
      exact
        .cons (Nat.lt_of_le_of_lt hLow hNumber) hChild hSiblings
          hInner hRest

theorem append
    {first second : List Branch}
    (hFirst : Named id low first middle)
    (hSecond : Named id middle second high) :
    Named id low (first ++ second) high := by
  induction hFirst with
  | nil _ h => exact hSecond.mono h
  | cons hNumber hChild hSiblings hInner _ _ ihRest =>
      exact
        .cons hNumber hChild hSiblings hInner (ihRest hSecond)

end Named

end Branch

/- Statements without names derive named branches. -/
theorem Body.Derives.named
    {sources : Sources}
    {statements : List Statement}
    {carried kept : List Expression}
    {layer last : Layer}
    {branches : List Branch}
    (h :
      Body.Derives sources statements carried layer kept last
        branches)
    (hLayer : layer.Sourced sources)
    (hNameless :
      ∀ statement ∈ statements, statement.Nameless) :
    last.id = layer.id ∧
      Branch.Named layer.id layer.children branches
        last.children := by
  induction h with
  | nil _ layer => exact ⟨rfl, .nil _ (Nat.le_refl _)⟩
  | plain _ hStep _ ih =>
      rw [List.forall_mem_cons] at hNameless
      rcases hNameless with ⟨⟨hName, _⟩, hRest⟩
      rcases hStep.id_children hName with ⟨hId, hChildren⟩
      have hNamed := ih (hStep.sourced hLayer) hRest
      rw [hId, hChildren] at hNamed
      exact hNamed
  | @refine _ values _ _ _ _ _ layer child _ inner branches _
      hBody _ ihBody ihRest =>
      rw [List.forall_mem_cons] at hNameless
      rcases hNameless with ⟨⟨_, hBlock⟩, hRest⟩
      have hChild := hLayer.refine_child values
      have hParent := hLayer.refine_parent values
      rcases layer.refine_child_id_children values sources with
        ⟨hId, hChildren⟩
      rcases ihBody hChild hBlock with ⟨hKept, hInner⟩
      rcases ihRest hParent hRest with ⟨hLast, hOthers⟩
      rw [hChildren, ← hKept] at hInner
      refine ⟨hLast, ?_⟩
      have hBranch :
          Branch.Sourced sources
            (.mk (layer.refine values sources) [] inner child) :=
        ⟨hParent, hBody.sourced hChild⟩
      exact
        .cons (Nat.lt_succ_self _) (hKept.trans hId)
          hBranch.namesSiblings hInner hOthers
  | @cascade _ values _ _ _ _ _ layer reached _ _ _ _ hBody _
      ihBody ihRest =>
      rw [List.forall_mem_cons] at hNameless
      rcases hNameless with ⟨⟨_, hBlock⟩, hRest⟩
      have hActive :=
        hLayer.withActive (Expression.condition? values)
      rcases ihBody hActive hBlock with ⟨hKept, hInner⟩
      have hReached := (hBody.sourced hActive).withActive none
      rcases ihRest hReached hRest with ⟨hLast, hOthers⟩
      have hSame : reached.id = layer.id := hKept
      refine ⟨hLast.trans hSame, ?_⟩
      have hBehind :
          Branch.Named reached.id reached.children _ _ := hOthers
      rw [hSame] at hBehind
      exact Branch.Named.append hInner hBehind

------------------------------------------------------------
-- Names below a layer
------------------------------------------------------------

namespace Branch

/- The siblings of a child are named after it, by letters. -/
theorem NamesSiblings.ids
    {refinement : Refinement}
    {child : Layer}
    (h : NamesSiblings refinement child) :
    (siblings refinement child).map Layer.id =
      (siblingPaths refinement.parent.cascades.length).map
        (Naming.name child.id) := by
  apply List.ext_getElem
  · simp [siblingPaths, h.length]
  · intro index hIndex _
    rw [List.length_map, h.length] at hIndex
    rcases h.each index _ (List.getElem?_eq_getElem hIndex) with
      ⟨layer, hLayer, hId, _⟩
    rcases List.getElem?_eq_some_iff.mp hLayer with
      ⟨hBound, hSame⟩
    rw [List.getElem_map, hSame, hId]
    simp [siblingPaths, Naming.name, Refinement.siblingId,
      Naming.siblingSegment]

namespace Named

variable {id : String}
variable {low high : Nat}
variable {branches : List Branch}

/- The names of the layers are those of their paths. -/
theorem names (h : Named id low branches high) :
    (layersOfAll branches).map Layer.id =
      (pathsOfAll branches).map (Naming.name id) := by
  induction h with
  | nil => rfl
  | @cons id _ _ _ refinement _ _ _ child _ hChild hSiblings _ _
      ihInner ihRest =>
      have hBelow :
          (Naming.name id ∘ fun path =>
              path ++ [countText refinement.parent.children]) =
            Naming.name child.id := by
        funext path
        rw [hChild]
        exact Naming.name_append _ _ _
      rw [layersOfAll, pathsOfAll, List.map_append,
        List.map_append, ihRest, layers, paths, List.map_map,
        hBelow, List.map_append, List.map_append, List.map_cons,
        List.map_cons, ihInner, hSiblings.ids]
      rfl

/- Every path ends with the number of a child. -/
theorem getLast?_of_mem_paths
    (h : Named id low branches high)
    {path : List String}
    (hPath : path ∈ pathsOfAll branches) :
    ∃ number,
      low < number ∧
        path.getLast? = some (countText number) := by
  induction h with
  | nil => cases hPath
  | @cons _ _ _ _ refinement _ _ _ _ hNumber _ _ _ _ _ ihRest =>
      rcases List.mem_append.mp hPath with hFirst | hLater
      · rcases List.mem_map.mp hFirst with ⟨inside, _, rfl⟩
        exact
          ⟨refinement.parent.children, hNumber,
            List.getLast?_concat⟩
      · rcases ihRest hLater with ⟨number, hAbove, hLast⟩
        exact ⟨number, Nat.lt_trans hNumber hAbove, hLast⟩

theorem isSegment_of_mem_paths
    (h : Named id low branches high)
    {path : List String}
    (hPath : path ∈ pathsOfAll branches) :
    ∀ segment ∈ path, Naming.IsSegment segment := by
  induction h generalizing path with
  | nil => cases hPath
  | cons _ _ _ _ _ ihInner ihRest =>
      rcases List.mem_append.mp hPath with hFirst | hLater
      · rcases List.mem_map.mp hFirst with ⟨inside, hIn, rfl⟩
        intro segment hSegment
        rcases List.mem_append.mp hSegment with hAbove | hLast
        · rcases List.mem_append.mp hIn with hInner | hOwn
          · exact ihInner hInner segment hAbove
          · rcases List.mem_cons.mp hOwn with rfl | hSibling
            · cases hAbove
            · rcases List.mem_map.mp hSibling with
                ⟨index, _, rfl⟩
              rw [List.mem_singleton.mp hAbove]
              exact Naming.isSegment_siblingSegment index
        · rw [List.mem_singleton.mp hLast]
          exact Naming.isSegment_countText _
      · exact ihRest hLater

/- The child and its siblings have different paths. -/
theorem nodup_siblingPaths (count : Nat) :
    ([] :: siblingPaths count).Nodup := by
  rw [List.nodup_cons]
  constructor
  · intro hNil
    rcases List.mem_map.mp hNil with ⟨_, _, hSame⟩
    cases hSame
  · refine List.pairwise_map.mpr (List.nodup_range.imp ?_)
    intro i j hNe hSame
    exact hNe
      (Naming.siblingSegment_injective (List.cons.inj hSame).1)

/- The paths of the layers are distinct. -/
theorem paths_nodup (h : Named id low branches high) :
    (pathsOfAll branches).Nodup := by
  induction h with
  | nil => exact List.nodup_nil
  | @cons _ _ _ _ refinement _ inner rest _ _ _ _ hInner hRest
      ihInner ihRest =>
      have hInside :
          (pathsOfAll inner
            ++ [] :: siblingPaths
              refinement.parent.cascades.length).Nodup := by
        refine List.nodup_append.mpr
          ⟨ihInner, nodup_siblingPaths _, ?_⟩
        rintro path hPath _ hOwn rfl
        rcases hInner.getLast?_of_mem_paths hPath with
          ⟨number, _, hLast⟩
        rcases List.mem_cons.mp hOwn with rfl | hSibling
        · cases hLast
        · rcases List.mem_map.mp hSibling with ⟨index, _, rfl⟩
          exact
            Naming.siblingSegment_ne_countText index number
              (Option.some.inj hLast)
      rw [pathsOfAll, paths]
      refine List.nodup_append.mpr ⟨?_, ihRest, ?_⟩
      · refine List.pairwise_map.mpr (hInside.imp ?_)
        intro path other hNe hSame
        exact hNe (List.append_cancel_right hSame)
      · rintro path hPath _ hLater rfl
        rcases List.mem_map.mp hPath with ⟨inside, _, rfl⟩
        rcases hRest.getLast?_of_mem_paths hLater with
          ⟨number, hAbove, hLast⟩
        rw [List.getLast?_concat] at hLast
        have hSame :=
          countText_injective (Option.some.inj hLast)
        exact absurd hSame (Nat.ne_of_lt hAbove)

end Named

end Branch

/- The paths of a layer and of all layers below it. -/
def Trunk.paths (trunk : Trunk) : List (List String) :=
  [] :: Branch.pathsOfAll trunk.branches

/- A trunk whose branches are named after its layer. -/
def Trunk.Named (trunk : Trunk) : Prop :=
  ∃ high, Branch.Named trunk.layer.id 0 trunk.branches high

namespace Trunk

variable {trunk other : Trunk}

theorem Named.names (h : trunk.Named) :
    trunk.layers.map Layer.id =
      trunk.paths.map (Naming.name trunk.layer.id) := by
  rcases h with ⟨high, hNamed⟩
  rw [layers, paths, List.map_cons, List.map_cons, hNamed.names]
  rfl

theorem Named.isSegment
    (h : trunk.Named)
    {path : List String}
    (hPath : path ∈ trunk.paths) :
    ∀ segment ∈ path, Naming.IsSegment segment := by
  rcases h with ⟨high, hNamed⟩
  rcases List.mem_cons.mp hPath with rfl | hBelow
  · intro segment hSegment
    cases hSegment
  · exact hNamed.isSegment_of_mem_paths hBelow

theorem Named.paths_nodup (h : trunk.Named) :
    trunk.paths.Nodup := by
  rcases h with ⟨high, hNamed⟩
  refine List.nodup_cons.mpr ⟨?_, hNamed.paths_nodup⟩
  intro hNil
  rcases hNamed.getLast?_of_mem_paths hNil with ⟨_, _, hLast⟩
  cases hLast

/- Layers with the same name have the same way from a root. -/
theorem Named.eq_of_name_eq
    (h : trunk.Named)
    (hOther : other.Named)
    (hRoot : Naming.IsRoot trunk.layer.id)
    (hOtherRoot : Naming.IsRoot other.layer.id)
    {path path' : List String}
    (hPath : path ∈ trunk.paths)
    (hPath' : path' ∈ other.paths)
    (hSame :
      Naming.name trunk.layer.id path =
        Naming.name other.layer.id path') :
    trunk.layer.id = other.layer.id ∧ path = path' :=
  Naming.name_injective hRoot hOtherRoot (h.isSegment hPath)
    (hOther.isSegment hPath') hSame

/- The names below distinct roots are distinct. -/
theorem ids_nodup
    {trunks : List Trunk}
    (hNamed : ∀ trunk ∈ trunks, trunk.Named)
    (hRoots :
      ∀ trunk ∈ trunks, Naming.IsRoot trunk.layer.id)
    (hNodup : (trunks.map fun trunk => trunk.layer.id).Nodup) :
    ((layersOfAll trunks).map Layer.id).Nodup := by
  induction trunks with
  | nil => exact List.nodup_nil
  | cons trunk rest ih =>
      rw [List.forall_mem_cons] at hNamed hRoots
      rw [List.map_cons, List.nodup_cons] at hNodup
      rcases hNodup with ⟨hNew, hRest⟩
      have hNames :
          (layersOfAll (trunk :: rest)).map Layer.id =
            trunk.paths.map (Naming.name trunk.layer.id)
              ++ (layersOfAll rest).map Layer.id := by
        unfold layersOfAll
        rw [List.flatMap_cons, List.map_append,
          hNamed.1.names]
      rw [hNames]
      refine List.nodup_append.mpr
        ⟨?_, ih hNamed.2 hRoots.2 hRest, ?_⟩
      · refine List.pairwise_map.mpr
          (hNamed.1.paths_nodup.imp_of_mem ?_)
        intro path path' hPath hPath' hNe hSame
        exact hNe
          (hNamed.1.eq_of_name_eq hNamed.1 hRoots.1 hRoots.1
            hPath hPath' hSame).2
      · rintro name hName _ hLater rfl
        rcases List.mem_map.mp hName with ⟨path, hPath, rfl⟩
        rcases List.mem_map.mp hLater with
          ⟨layer, hLayer, hId⟩
        rcases List.mem_flatMap.mp hLayer with
          ⟨other, hOther, hIn⟩
        have hBelow : layer.id ∈ other.layers.map Layer.id :=
          List.mem_map_of_mem hIn
        rw [(hNamed.2 other hOther).names] at hBelow
        rcases List.mem_map.mp hBelow with
          ⟨path', hPath', hOtherName⟩
        have hSame :=
          hNamed.1.eq_of_name_eq (hNamed.2 other hOther)
            hRoots.1 (hRoots.2 other hOther) hPath hPath'
            (hId.symm.trans hOtherName.symm)
        apply hNew
        rw [hSame.1]
        exact List.mem_map_of_mem hOther

end Trunk

------------------------------------------------------------
-- Programs
------------------------------------------------------------

/- The name of the layer that a statement defines. -/
def Statement.layerId?
    (extensions : Bag Recipe)
    (statement : Statement) : Option String :=
  if statement.name = "layer" then
    match
      (Scope.evaluateArguments ⟨extensions, none⟩
        statement.args).outcome
    with
    | .ok values =>
        match Arguments.nameAndOptions values "layer" with
        | .ok (id, _) => some id
        | .error _ => none
    | .error _ => none
  else
    none

namespace Program

variable {texts : Texts}
variable {bound : Nat}

/- No statement in a block of the program names a layer. -/
def Nameless (program : Program) : Prop :=
  ∀ statement ∈ program,
    ∀ inner ∈ statement.block.getD [], inner.Nameless

/- The names of the layers that a program defines. -/
def layerIds (program : Program) : List String :=
  program.filterMap (Statement.layerId? .empty)

instance (program : Program) : Decidable program.Nameless := by
  unfold Nameless
  infer_instance

theorem layerIds_append
    (first second : Program) :
    layerIds (first ++ second) =
      layerIds first ++ layerIds second :=
  List.filterMap_append

theorem layerIds_of_ne
    {name : String}
    {args : List Argument}
    {block : Option (List Statement)}
    (h : name ≠ "layer")
    (rest : Program) :
    layerIds (.mk name args block :: rest) = layerIds rest := by
  have hNone :
      (Statement.mk name args block).layerId? .empty = none := by
    unfold Statement.layerId?
    exact if_neg h
  unfold layerIds
  rw [List.filterMap_cons_none hNone]

theorem layerIds_layer
    (statement : Statement)
    {values : List Value}
    {id : String}
    {options : List (String × Value)}
    (hName : statement.name = "layer")
    (hArgs : Evaluates statement.args values)
    (hOptions :
      Arguments.nameAndOptions values "layer" =
        .ok (id, options))
    (rest : Program) :
    layerIds (statement :: rest) = id :: layerIds rest := by
  have hSome : statement.layerId? .empty = some id := by
    unfold Evaluates at hArgs
    unfold Statement.layerId?
    rw [if_pos hName, hArgs]
    dsimp only
    rw [hOptions]
  unfold layerIds
  rw [List.filterMap_cons_some hSome]

theorem nameless_append
    {first second : Program} :
    Nameless (first ++ second) ↔
      Nameless first ∧ Nameless second :=
  List.forall_mem_append

theorem includedFile?_of_ne
    {name : String}
    {args : List Argument}
    {block : Option (List Statement)}
    (h : name ≠ "include") :
    (Statement.mk name args block).includedFile? .empty =
      none := by
  unfold Statement.includedFile?
  exact if_neg fun hBoth => h hBoth.1

theorem includedFile?_include
    (statement : Statement)
    {values : List Value}
    {file : String}
    (hName : statement.name = "include")
    (hBlock : statement.block = none)
    (hArgs : Evaluates statement.args values)
    (hFile : Arguments.text values 0 "include" = .ok file) :
    statement.includedFile? .empty = some file := by
  unfold Evaluates at hArgs
  unfold Statement.includedFile?
  rw [if_pos ⟨hName, hBlock⟩, hArgs]
  dsimp only
  rw [hFile]
  rfl

/-
  A derivation has one trunk for each layer that the program
  defines, under the name of the layer.
-/
theorem Derives.named
    {program : Program}
    {sources last : Sources}
    {trunks : List Trunk}
    (h : Derives texts bound program sources last trunks) :
    ∀ {depth : Nat},
      bound ≤ depth →
        Nameless (expanded texts .empty depth program) →
          (trunks.map fun trunk => trunk.layer.id) =
              layerIds (expanded texts .empty depth program) ∧
            ∀ trunk ∈ trunks, trunk.Named := by
  induction h with
  | nil bound sources =>
      intro depth _ _
      rw [expanded_nil]
      exact ⟨rfl, by simp⟩
  | source _ _ _ ih =>
      intro depth hDepth hNameless
      rw [expanded_other (includedFile?_of_ne (by decide))]
        at hNameless ⊢
      rw [layerIds_of_ne (by decide)]
      exact ih hDepth (List.forall_mem_cons.mp hNameless).2
  | @layer _ args _ block id options _ sources _ _ _ _ _ hArgs
      hOptions hBody _ ih =>
      intro depth hDepth hNameless
      rw [expanded_other (includedFile?_of_ne (by decide))]
        at hNameless ⊢
      rcases List.forall_mem_cons.mp hNameless with
        ⟨hBlock, hRest⟩
      rcases ih hDepth hRest with ⟨hIds, hNamed⟩
      rcases Layer.create_id_children id options sources with
        ⟨hId, hChildren⟩
      rcases hBody.named (Layer.create_sourced _ _) hBlock with
        ⟨hKept, hBranches⟩
      rw [hChildren, ← hKept] at hBranches
      rw [layerIds_layer (.mk "layer" args block) rfl hArgs
        hOptions, List.map_cons, hIds]
      refine ⟨?_, List.forall_mem_cons.mpr ⟨?_, hNamed⟩⟩
      · rw [hKept, hId]
      · exact ⟨_, hBranches⟩
  | @splice _ args _ _ _ _ _ _ _ _ _ _ hArgs hFile hText hRead
      _ _ ihIncluded ihRest =>
      intro depth hDepth hNameless
      obtain ⟨depth, rfl⟩ : ∃ below, depth = below + 1 :=
        ⟨depth - 1, by omega⟩
      have hIncluded :=
        includedFile?_include (.mk "include" args none) rfl rfl
          hArgs hFile
      rw [expanded_included hIncluded
        (ofFile?_of_read hText hRead)] at hNameless ⊢
      rcases nameless_append.mp hNameless with
        ⟨hInside, hRest⟩
      rcases ihIncluded (by omega) hInside with
        ⟨hIds, hNamed⟩
      rcases ihRest hDepth hRest with ⟨hOthers, hLater⟩
      rw [layerIds_append, List.map_append, hIds, hOthers]
      exact
        ⟨rfl, List.forall_mem_append.mpr ⟨hNamed, hLater⟩⟩
  | property _ hName _ ih =>
      intro depth hDepth hNameless
      simp only [List.mem_cons, List.not_mem_nil, or_false,
        not_or] at hName
      rcases hName with ⟨_, hLayer, hInclude⟩
      rw [expanded_other (includedFile?_of_ne hInclude)]
        at hNameless ⊢
      rw [layerIds_of_ne hLayer]
      exact ih hDepth (List.forall_mem_cons.mp hNameless).2

/- A program with all that it includes in place. -/
def whole (texts : Texts) (program : Program) : Program :=
  expanded texts .empty maxIncludes program

end Program

/-
  All layers of a text have distinct names if those that its
  statements define have, and these contain no two underscores
  in a row, and no statement inside of a layer names one. The
  statements are those of the text and of all that it
  includes.
-/
theorem Sheet.load_ids_nodup
    {texts : Texts}
    {source : String}
    {program : Program}
    {s t : Session}
    (hEmpty : s.sheet.extensions = .empty)
    (hFresh : s.sheet.layers = [])
    (hRead : Program.read source = .ok program)
    (hLoad : load texts source s = .ok () t)
    (hNameless : (Program.whole texts program).Nameless)
    (hRoots :
      ∀ id ∈ (Program.whole texts program).layerIds,
        Naming.IsRoot id)
    (hNodup :
      (Program.whole texts program).layerIds.Nodup) :
    (t.sheet.layers.map Layer.id).Nodup := by
  rcases load_eq_ok.mp hLoad with ⟨found, hFound, hRun⟩
  have hSame : found = program := by
    rw [hRead] at hFound
    exact (Except.ok.inj hFound).symm
  subst hSame
  rcases Program.yields_of_runWithin _ found hRun hEmpty with
    ⟨trunks, hYields⟩
  rcases hYields.derives.named (Nat.le_refl _) hNameless with
    ⟨hIds, hNamed⟩
  rw [hYields.layers, hFresh, List.nil_append]
  apply Trunk.ids_nodup hNamed
  · intro trunk hTrunk
    apply hRoots
    unfold Program.whole
    rw [← hIds]
    exact List.mem_map_of_mem hTrunk
  · rw [hIds]
    exact hNodup

/- A layer with two children, and one in a child of it. -/
def familyLayers : String :=
  "layer :a \x7b
    cascade k == 1 \x7b line_color :red \x7d
    on k == 2 \x7b on \x7b line_opacity 1 \x7d \x7d
    on \x7b line_width 2 \x7d
  \x7d
  layer :b"

theorem Sheet.load_ids_nodup_familyLayers :
    ∃ t,
      load (Texts.ofList []) familyLayers Document.fresh =
          .ok () t ∧
        t.sheet.layers.map Layer.id =
          ["a", "a__1__1", "a__1__1__a", "a__1", "a__1__a",
            "a__2", "a__2__a", "b"] ∧
        (t.sheet.layers.map Layer.id).Nodup := by
  have hIds :
      (layersOf? familyLayers).map (List.map Layer.id) =
        some
          ["a", "a__1__1", "a__1__1__a", "a__1", "a__1__a",
            "a__2", "a__2__a", "b"] := by
    decide +kernel
  rcases Option.map_eq_some_iff.mp hIds with
    ⟨layers, hLayers, hNames⟩
  rcases layersOf?_eq_some.mp hLayers with ⟨t, hLoad, rfl⟩
  rcases load_eq_ok.mp hLoad with ⟨program, hRead, _⟩
  -- What is assumed of the program can be computed.
  have hPlain :
      ∀ found ∈ (Program.read familyLayers).toOption,
        (Program.whole (Texts.ofList []) found).Nameless ∧
          (∀ id ∈
              (Program.whole (Texts.ofList [])
                found).layerIds,
            Naming.IsRoot id) ∧
            (Program.whole (Texts.ofList [])
              found).layerIds.Nodup := by
    decide +kernel
  rcases hPlain program (by rw [hRead]; rfl) with
    ⟨hNameless, hRoots, hNodup⟩
  exact
    ⟨t, hLoad, hNames,
      load_ids_nodup rfl rfl hRead hLoad hNameless hRoots
        hNodup⟩

end MapStyle
