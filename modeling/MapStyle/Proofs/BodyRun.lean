import MapStyle.Proofs.Action

/-
  The run of a body and its derivation: the stylesheet gets
  the layers of the derived branches, in their order, behind
  those that it has.

  Main statements:
    * `Refinement.siblings_eq`
    * `Body.derives_of_runBlock`
    * `Body.Derives.runStatements`
-/

namespace MapStyle

------------------------------------------------------------
-- Siblings
------------------------------------------------------------

theorem Stylesheet.append_append
    (sheet : Stylesheet)
    (first second : List Layer) :
    (sheet.append first).append second =
      sheet.append (first ++ second) := by
  unfold Stylesheet.append
  rw [List.append_assoc]

theorem Stylesheet.append_nil (sheet : Stylesheet) :
    sheet.append [] = sheet := by
  unfold Stylesheet.append
  rw [List.append_nil]

/- New layers do not change the sources. -/
theorem Stylesheet.append_sources
    (sheet : Stylesheet)
    (layers : List Layer) :
    (sheet.append layers).sources = sheet.sources := rfl

/-
  Deriving the siblings of a sourced child replaces its name
  and overlays the overrides, and does nothing else.
-/
theorem Refinement.siblings_eq
    (r : Refinement)
    {child : Layer}
    {sources : Sources}
    (h : child.Sourced sources) :
    r.siblings child sources = Branch.siblings r child := by
  unfold Refinement.siblings Branch.siblings
  congr 1
  funext index cascade
  unfold Refinement.sibling Branch.sibling
  rw [Layer.derive_eq h]
  rfl

------------------------------------------------------------
-- Blocks
------------------------------------------------------------

namespace Build

variable {ε α : Type}

/- The workbench on which a refined layer begins. -/
def childBench
    (args : List Value)
    (w : Workbench) : Workbench :=
  let r := w.layer.refine args w.sheet.sources
  { layer := r.child
    sheet := w.sheet
    log := w.log ++ r.child.creationEvents }

/- The workbench after a refined layer has been finished. -/
def parentBench
    (args : List Value)
    (w finished : Workbench) : Workbench :=
  let r := w.layer.refine args w.sheet.sources
  let sources := finished.sheet.sources
  let siblings := r.siblings finished.layer sources
  { layer := r.parent
    sheet := finished.sheet.append (finished.layer :: siblings)
    log :=
      (finished.log
        ++ siblingEvents finished.layer sources
          siblings.length).push
        (.derived r.parent.id finished.layer.id
          siblings.length) }

/- A refinement succeeds if its body does. -/
theorem refine_eq_ok
    {args : List Value}
    {body : Build ε α}
    {w u : Workbench}
    {a : α} :
    refine args body w = .ok a u ↔
      ∃ v,
        body (childBench args w) = .ok a v ∧
          u = parentBench args w v := by
  have hRefine :
      refine args body w =
        Action.finish (parentBench args w)
          (fun v =>
            { v with
              layer :=
                (w.layer.refine args w.sheet.sources).parent })
          (body (childBench args w)) := by
    unfold refine childBench parentBench
    dsimp only
    cases body _ with
    | ok b v => rfl
    | error e v => rfl
  rw [hRefine, Action.finish_eq_ok]

/- The child and its siblings go behind what is inside. -/
theorem parentBench_sheet
    (args : List Value)
    {w v : Workbench}
    (carried : List Expression)
    {inner : List Branch}
    (hSheet :
      v.sheet = w.sheet.append (Branch.layersOfAll inner))
    (hFinished : v.layer.Sourced w.sheet.sources) :
    (parentBench args w v).sheet =
      w.sheet.append
        (Branch.layers
          (.mk (w.layer.refine args w.sheet.sources) carried
            inner v.layer)) := by
  have hSources : v.sheet.sources = w.sheet.sources := by
    rw [hSheet, Stylesheet.append_sources]
  simp only [parentBench, hSources]
  rw [Refinement.siblings_eq _ hFinished, hSheet,
    Stylesheet.append_append]
  rfl

/- The workbench with another condition active. -/
def withActive
    (condition : Option Expression)
    (w : Workbench) : Workbench :=
  { w with layer := { w.layer with active := condition } }

/- A cascade succeeds if its body does. -/
theorem cascade_eq_ok
    {args : List Value}
    {body : Build ε α}
    {w u : Workbench}
    {a : α} :
    cascade args body w = .ok a u ↔
      ∃ v,
        body (withActive (Expression.condition? args) w) =
            .ok a v ∧
          u = withActive none v := by
  have hCascade :
      cascade args body w =
        Action.finish (withActive none) (withActive none)
          (body
            (withActive (Expression.condition? args) w)) := by
    unfold cascade withActive
    dsimp only
    cases body _ with
    | ok b v => rfl
    | error e v => rfl
  rw [hCascade, Action.finish_eq_ok]

end Build

------------------------------------------------------------
-- From runs to derivations
------------------------------------------------------------

namespace Body

variable {run : Runner}

/-
  What a run of a statement gives: branches that it appends to
  the stylesheet, and the first step of every derivation that
  goes on from the layer that it leaves.
-/
def Unfolds
    (statement : Statement)
    (carried : List Expression)
    (w u : Workbench) : Prop :=
  ∃ inside branches,
    u.sheet = w.sheet.append (Branch.layersOfAll branches) ∧
      ∀ rest kept last more,
        Derives w.sheet.sources rest inside u.layer kept last
            more →
          Derives w.sheet.sources (statement :: rest) carried
            w.layer kept last (branches ++ more)

/- The log before the statement does not matter. -/
theorem Unfolds.congr
    {statement : Statement}
    {carried : List Expression}
    {w logged u : Workbench}
    (h : Unfolds statement carried logged u)
    (hLayer : logged.layer = w.layer)
    (hSheet : logged.sheet = w.sheet) :
    Unfolds statement carried w u := by
  unfold Unfolds at h ⊢
  rw [hLayer, hSheet] at h
  exact h

theorem refuseBlock_eq_ok
    {name : String}
    {block : Option (List Statement)}
    {w u : Workbench} :
    refuseBlock name block w = .ok () u ↔
      block = none ∧ u = w := by
  cases block with
  | none =>
      constructor
      · intro h
        cases h
        exact ⟨rfl, rfl⟩
      · rintro ⟨_, rfl⟩
        rfl
  | some statements =>
      constructor
      · intro h
        cases h
      · rintro ⟨hNone, _⟩
        cases hNone

/- A finished child is one branch, with its siblings. -/
theorem unfolds_refine
    {args : List Argument}
    {values : List Value}
    {block : Option (List Statement)}
    {carried inside : List Expression}
    {w v : Workbench}
    {inner : List Branch}
    (hArgs : w.layer.Evaluates args values)
    (hChild :
      (w.layer.refine values w.sheet.sources).child.Sourced
        w.sheet.sources)
    (hInner :
      Derives w.sheet.sources (block.getD [])
        (carried ++ w.layer.uncascaded.toList)
        (w.layer.refine values w.sheet.sources).child inside
        v.layer inner)
    (hSheet :
      v.sheet =
        w.sheet.append (Branch.layersOfAll inner)) :
    Unfolds (.mk "on" args block) carried w
      (Build.parentBench values w v) := by
  refine
    ⟨carried,
      [.mk (w.layer.refine values w.sheet.sources) carried
        inner v.layer], ?_, ?_⟩
  · rw [Build.parentBench_sheet values carried hSheet
      (hInner.sourced hChild)]
    simp only [Branch.layersOfAll, List.append_nil]
  · intro rest kept last more hRest
    exact .refine hArgs hInner hRest

mutual

/-
  Every run of a statement unfolds it, by recursion into its
  block. The three lemmas follow the three functions.
-/
theorem unfolds_of_runStatement :
    (statement : Statement) →
      (carried : List Expression) →
        {w u : Workbench} →
          w.sheet.extensions = .empty →
            w.layer.Sourced w.sheet.sources →
              runStatement run statement w = .ok () u →
                Unfolds statement carried w u
  | .mk name args block, carried, w, u, hEmpty, hLayer, h =>
      by
      unfold runStatement at h
      rcases Action.bind_eq_ok.mp h with
        ⟨values, logged, hEvaluated, hRun⟩
      rcases (Build.evaluated_eq_ok hEmpty).mp hEvaluated with
        ⟨hArgs, hLogged⟩
      have hSameLayer : logged.layer = w.layer := by
        rw [hLogged]
      have hSameSheet : logged.sheet = w.sheet := by
        rw [hLogged]
      apply Unfolds.congr _ hSameLayer hSameSheet
      rw [← hSameLayer] at hArgs hLayer
      rw [← hSameSheet] at hEmpty hLayer
      split at hRun
      · rcases Build.refine_eq_ok.mp hRun with
          ⟨v, hBody, rfl⟩
        have hChild := hLayer.refine_child values
        rcases derives_of_runBlock block
            (carried ++ logged.layer.uncascaded.toList)
            (w := Build.childBench values logged) hEmpty hChild
            hBody with
          ⟨_, inner, hSheet, hInner⟩
        exact unfolds_refine hArgs hChild hInner hSheet
      · rcases Build.cascade_eq_ok.mp hRun with
          ⟨v, hBody, rfl⟩
        rcases derives_of_runBlock block carried
            (w := Build.withActive
              (Expression.condition? values) logged)
            hEmpty (hLayer.withActive _) hBody with
          ⟨inside, inner, hSheet, hInner⟩
        refine ⟨inside, inner, hSheet, ?_⟩
        intro rest kept last more hRest
        exact .cascade hArgs hInner hRest
      · next hOn hCascade =>
          rcases Action.bind_eq_ok.mp hRun with
            ⟨_, v, hBlock, hSimple⟩
          rcases refuseBlock_eq_ok.mp hBlock with ⟨rfl, rfl⟩
          rcases performs_of_runSimple hEmpty hOn hCascade
              hSimple with
            ⟨hStep, hSheet⟩
          refine
            ⟨Statement.carriedAfter name carried, [], ?_, ?_⟩
          · rw [hSheet]
            exact (Stylesheet.append_nil _).symm
          · intro rest kept last more hRest
            exact .plain hArgs hStep hRest

theorem derives_of_runStatements :
    (statements : List Statement) →
      (carried : List Expression) →
        {w u : Workbench} →
          w.sheet.extensions = .empty →
            w.layer.Sourced w.sheet.sources →
              runStatements run statements w = .ok () u →
                ∃ kept branches,
                  u.sheet =
                      w.sheet.append
                        (Branch.layersOfAll branches) ∧
                    Derives w.sheet.sources statements carried
                      w.layer kept u.layer branches
  | [], carried, w, u, _, _, h => by
      cases h
      refine ⟨carried, [], ?_, .nil _ _⟩
      exact (Stylesheet.append_nil _).symm
  | statement :: rest, carried, w, u, hEmpty, hLayer, h => by
      rcases Action.bind_eq_ok.mp h with
        ⟨_, v, hStatement, hRest⟩
      rcases unfolds_of_runStatement statement carried hEmpty
          hLayer hStatement with
        ⟨inside, branches, hSheet, hStep⟩
      have hSources : v.sheet.sources = w.sheet.sources := by
        rw [hSheet, Stylesheet.append_sources]
      have hNext : v.layer.Sourced v.sheet.sources := by
        rw [hSources]
        exact
          (hStep [] inside v.layer [] (.nil _ _)).sourced hLayer
      have hStillEmpty : v.sheet.extensions = .empty := by
        rw [hSheet]
        exact hEmpty
      rcases derives_of_runStatements rest inside hStillEmpty
          hNext hRest with
        ⟨kept, more, hMore, hDerives⟩
      refine ⟨kept, branches ++ more, ?_, ?_⟩
      · rw [hMore, hSheet, Stylesheet.append_append,
          Branch.layersOfAll_append]
      · rw [hSources] at hDerives
        exact hStep rest kept u.layer more hDerives

theorem derives_of_runBlock :
    (block : Option (List Statement)) →
      (carried : List Expression) →
        {w u : Workbench} →
          w.sheet.extensions = .empty →
            w.layer.Sourced w.sheet.sources →
              runBlock run block w = .ok () u →
                ∃ kept branches,
                  u.sheet =
                      w.sheet.append
                        (Branch.layersOfAll branches) ∧
                    Derives w.sheet.sources (block.getD [])
                      carried w.layer kept u.layer branches
  | none, carried, w, u, _, _, h => by
      cases h
      refine ⟨carried, [], ?_, .nil _ _⟩
      exact (Stylesheet.append_nil _).symm
  | some statements, carried, w, u, hEmpty, hLayer, h =>
      derives_of_runStatements statements carried hEmpty hLayer
        h

end

------------------------------------------------------------
-- From derivations to runs
------------------------------------------------------------

variable {sources : Sources}

theorem runBlock_eq (block : Option (List Statement)) :
    runBlock run block = runStatements run (block.getD []) := by
  cases block with
  | none => rfl
  | some statements => rfl

/- The workbench after arguments have been evaluated on it. -/
def evaluatedBench
    (args : List Argument)
    (w : Workbench) : Workbench :=
  { w with
    log :=
      w.log
        ++ ((Scope.inLayer w).evaluateArguments args).events }

variable {w u v : Workbench}
variable {args : List Argument}
variable {values : List Value}
variable {block : Option (List Statement)}

/-
  The other way: an `on` block is run by running its block
  on the child.
-/
theorem runStatement_on
    (hEmpty : w.sheet.extensions = .empty)
    (hArgs : w.layer.Evaluates args values)
    (hBody :
      runBlock run block
          (Build.childBench values (evaluatedBench args w)) =
        .ok () v) :
    runStatement run (.mk "on" args block) w =
      .ok ()
        (Build.parentBench values (evaluatedBench args w) v) := by
  unfold runStatement
  have hEvaluated :=
    (Build.evaluated_eq_ok hEmpty).mpr
      ⟨hArgs, (rfl : evaluatedBench args w = _)⟩
  have hRefine := Build.refine_eq_ok.mpr ⟨v, hBody, rfl⟩
  exact Action.bind_eq_ok.mpr ⟨values, _, hEvaluated, hRefine⟩

theorem runStatement_cascade
    (hEmpty : w.sheet.extensions = .empty)
    (hArgs : w.layer.Evaluates args values)
    (hBody :
      runBlock run block
          (Build.withActive (Expression.condition? values)
            (evaluatedBench args w)) =
        .ok () v) :
    runStatement run (.mk "cascade" args block) w =
      .ok () (Build.withActive none v) := by
  unfold runStatement
  have hEvaluated :=
    (Build.evaluated_eq_ok hEmpty).mpr
      ⟨hArgs, (rfl : evaluatedBench args w = _)⟩
  have hCascade := Build.cascade_eq_ok.mpr ⟨v, hBody, rfl⟩
  exact Action.bind_eq_ok.mpr
    ⟨values, _, hEvaluated, hCascade⟩

/- A statement without a block does what its name says. -/
theorem runStatement_plain
    (run : Runner)
    {name : String}
    {next : Layer}
    (hEmpty : w.sheet.extensions = .empty)
    (hArgs : w.layer.Evaluates args values)
    (hStep : Layer.Performs name values w.layer next) :
    ∃ log,
      runStatement run (.mk name args none) w =
        .ok () { w with layer := next, log := log } := by
  have hEvaluated :=
    (Build.evaluated_eq_ok hEmpty).mpr
      ⟨hArgs, (rfl : evaluatedBench args w = _)⟩
  rcases runSimple_of_performs run
      (w := evaluatedBench args w) hEmpty hStep with
    ⟨log, hSimple⟩
  have hBlock :
      refuseBlock name none (evaluatedBench args w) =
        .ok () (evaluatedBench args w) := rfl
  refine ⟨log, ?_⟩
  unfold runStatement
  refine Action.bind_eq_ok.mpr ⟨values, _, hEvaluated, ?_⟩
  rcases hStep.ne_block with ⟨hOn, hCascade⟩
  split
  · exact absurd rfl hOn
  · exact absurd rfl hCascade
  · exact Action.bind_eq_ok.mpr ⟨(), _, hBlock, hSimple⟩

/- Statements succeed if the first and the others do. -/
theorem runStatements_cons
    {statement : Statement}
    {rest : List Statement}
    (hStatement : runStatement run statement w = .ok () u)
    (hRest : runStatements run rest u = .ok () v) :
    runStatements run (statement :: rest) w = .ok () v := by
  unfold runStatements
  exact Action.bind_eq_ok.mpr ⟨(), u, hStatement, hRest⟩

/-
  Every derivation is that of a run, on each workbench with
  the layer and the sources that it begins with.
-/
theorem Derives.runStatements
    (run : Runner)
    {sources : Sources}
    {statements : List Statement}
    {carried kept : List Expression}
    {layer last : Layer}
    {branches : List Branch}
    (h :
      Derives sources statements carried layer kept last
        branches)
    (hLayer : layer.Sourced sources)
    (hEmpty : w.sheet.extensions = .empty)
    (hSources : w.sheet.sources = sources)
    (hWork : w.layer = layer) :
    ∃ log,
      Body.runStatements run statements w =
        .ok ()
          { layer := last
            sheet :=
              w.sheet.append (Branch.layersOfAll branches)
            log := log } := by
  induction h generalizing w with
  | nil _ layer =>
      subst hWork
      refine ⟨w.log, ?_⟩
      unfold Branch.layersOfAll
      rw [Stylesheet.append_nil]
      rfl
  | plain hArgs hStep hRest ih =>
      subst hWork
      rcases runStatement_plain run hEmpty hArgs hStep with
        ⟨log, hStatement⟩
      rcases ih (hStep.sourced hLayer)
          (w := { w with layer := _, log := log })
          hEmpty hSources rfl with
        ⟨last, hLast⟩
      exact ⟨last, runStatements_cons hStatement hLast⟩
  | @refine args values block _ carried _ _ _ child _ inner _
      hArgs hBody _ ihBody ihRest =>
      subst hWork hSources
      have hChild := hLayer.refine_child values
      let evaluated := evaluatedBench args w
      rcases ihBody hChild
          (w := Build.childBench values evaluated)
          hEmpty rfl rfl with
        ⟨log, hInside⟩
      rw [← runBlock_eq] at hInside
      let finished : Workbench :=
        { layer := child
          sheet :=
            w.sheet.append (Branch.layersOfAll inner)
          log := log }
      have hSheet :=
        Build.parentBench_sheet values carried
          (w := evaluated) (v := finished) rfl
          (hBody.sourced hChild)
      have hStatement :=
        runStatement_on hEmpty hArgs hInside
      rcases ihRest (hLayer.refine_parent values)
          (w := Build.parentBench values evaluated finished)
          (by rw [hSheet]; exact hEmpty)
          (by rw [hSheet]; rfl) rfl with
        ⟨last, hLast⟩
      refine ⟨last, ?_⟩
      rw [runStatements_cons hStatement hLast, hSheet,
        Stylesheet.append_append]
      rfl
  | @cascade args values block _ _ _ _ _ reached _ inner _
      hArgs hBody _ ihBody ihRest =>
      subst hWork hSources
      have hActive :=
        hLayer.withActive (Expression.condition? values)
      rcases ihBody hActive
          (w := Build.withActive _ (evaluatedBench args w))
          hEmpty rfl rfl with
        ⟨log, hInside⟩
      rw [← runBlock_eq] at hInside
      have hStatement :=
        runStatement_cascade hEmpty hArgs hInside
      let finished : Workbench :=
        { layer := reached
          sheet :=
            w.sheet.append (Branch.layersOfAll inner)
          log := log }
      rcases ihRest ((hBody.sourced hActive).withActive none)
          (w := Build.withActive none finished)
          hEmpty rfl rfl with
        ⟨last, hLast⟩
      refine ⟨last, ?_⟩
      rw [runStatements_cons hStatement hLast,
        Branch.layersOfAll_append,
        ← Stylesheet.append_append]
      rfl

end Body

end MapStyle
