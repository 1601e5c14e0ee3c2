import MapStyle.Evaluation.Recipe
import MapStyle.Proofs.Action

/-
  What the body of a layer leaves alone, whether it succeeds
  or fails: the extensions always, and the filter of the layer
  unless a statement or a step of the body sets it.

  Key definitions include:
    * `Statement.Filterless`
    * `Step.Filterless`
    * `Workbench.Framed`
    * `Build.Frames`

  Main statements:
    * `Body.frames_runBlock`
    * `Steps.frames_run`
    * `Recipe.frames_runnerWithin`
-/

namespace MapStyle

------------------------------------------------------------
-- Bodies that set no filter
------------------------------------------------------------

/-
  A statement that does not set the filter of the layer that
  it works on. The body of an `on` block works on another one.
  Names that are called have to be allowed.
-/
inductive Statement.Filterless
    (allowed : String → Prop) : Statement → Prop
  | refine
    (args : List Argument)
    (block : Option (List Statement)) :
      Statement.Filterless allowed (.mk "on" args block)
  | cascade
    (args : List Argument)
    {block : Option (List Statement)}
    (hBody :
      ∀ statement ∈ block.getD [],
        Statement.Filterless allowed statement) :
      Statement.Filterless allowed (.mk "cascade" args block)
  | plain
    {name : String}
    (args : List Argument)
    (block : Option (List Statement))
    (hFilter : name ≠ "filter")
    (hCascade : name ≠ "cascade")
    (hCall : name ∈ Statement.keywords ∨ allowed name) :
      Statement.Filterless allowed (.mk name args block)

namespace Statement.Filterless

variable {allowed : String → Prop}
variable {name : String}
variable {args : List Argument}
variable {block : Option (List Statement)}

theorem ne_filter
    (h : Filterless allowed (.mk name args block)) :
    name ≠ "filter" := by
  cases h with
  | refine => decide
  | cascade => decide
  | plain _ _ hFilter => exact hFilter

/-
  A cascade works on the same layer, so its block sets no
  filter either.
-/
theorem cascade_block
    (h : Filterless allowed (.mk name args block))
    (hName : name = "cascade") :
    ∀ statement ∈ block.getD [],
      statement.Filterless allowed := by
  cases h with
  | refine => exact absurd hName (by decide)
  | cascade _ hBody => exact hBody
  | plain _ _ _ hCascade => exact absurd hName hCascade

/- A name that is no keyword is called. -/
theorem allowed_of_not_keyword
    (h : Filterless allowed (.mk name args block))
    (hKeyword : name ∉ Statement.keywords) :
    allowed name := by
  cases h with
  | refine => exact absurd (by decide) hKeyword
  | cascade => exact absurd (by decide) hKeyword
  | plain _ _ _ _ hCall =>
      exact hCall.resolve_left hKeyword

/- Without a block nothing else has to be known. -/
theorem simple
    (h : Filterless allowed (.mk name args block))
    (hName : name ≠ "cascade") :
    Filterless allowed (.mk name [] none) := by
  cases h with
  | refine => exact .refine [] none
  | cascade => exact absurd rfl hName
  | plain _ _ hFilter hCascade hCall =>
      exact .plain [] none hFilter hCascade hCall

end Statement.Filterless

/-
  An action that runs no other one and does not set the
  filter.
-/
def Action.isHarmless : Action → Bool
  | .filter _ => false
  | .refine _ _ => false
  | .cascade _ _ => false
  | .call _ _ => false
  | .statements _ => false
  | _ => true

/- The same for the step of a recipe. -/
inductive Step.Filterless
    (allowed : String → Prop) : Step → Prop
  | refine
    (args : List Template)
    (body : List Step)
    (caught : Bool) :
      Step.Filterless allowed (.mk (.refine args body) caught)
  | cascade
    (args : List Template)
    {body : List Step}
    (caught : Bool)
    (hBody :
      ∀ step ∈ body, Step.Filterless allowed step) :
      Step.Filterless allowed (.mk (.cascade args body) caught)
  | call
    {name : String}
    (args : List Template)
    (caught : Bool)
    (hCall : allowed name) :
      Step.Filterless allowed (.mk (.call name args) caught)
  | statements
    {source : String}
    (caught : Bool)
    (hProgram :
      ∀ program,
        Program.read source = .ok program →
          ∀ statement ∈ program,
            statement.Filterless allowed) :
      Step.Filterless allowed (.mk (.statements source) caught)
  | plain
    {action : Action}
    (caught : Bool)
    (hAction : action.isHarmless = true) :
      Step.Filterless allowed (.mk action caught)

/- No step of the recipe sets the filter. -/
def Recipe.Filterless
    (allowed : String → Prop)
    (recipe : Recipe) : Prop :=
  ∀ step ∈ recipe.steps, step.Filterless allowed

/- The extensions with an allowed name set no filter. -/
def Stylesheet.Filterless
    (allowed : String → Prop)
    (sheet : Stylesheet) : Prop :=
  ∀ name recipe,
    allowed name →
      sheet.extensions.get? name = some recipe →
        recipe.Filterless allowed

------------------------------------------------------------
-- Frames
------------------------------------------------------------

/-
  A workbench after some actions: the extensions are those of
  the workbench before, and so is the filter if the actions
  are known not to set it.
-/
structure Workbench.Framed
    (allowed : String → Prop)
    (filterless : Prop)
    (w v : Workbench) : Prop where
  extensions : v.sheet.extensions = w.sheet.extensions
  filter :
    filterless →
      w.sheet.Filterless allowed →
        v.layer.filter = w.layer.filter

/- What an action leaves, if it fails as well. -/
def Build.after
    {ε α : Type}
    (action : Build ε α)
    (w : Workbench) : Workbench :=
  match action w with
  | .ok _ v => v
  | .error _ v => v

namespace Build

variable {ε α β : Type}
variable {w v : Workbench}

/- The workbench that an action leaves, by its outcome. -/
theorem after_of_ok
    {action : Build ε α}
    {a : α}
    (h : action w = .ok a v) : after action w = v := by
  unfold after
  rw [h]

theorem after_of_error
    {action : Build ε α}
    {e : ε}
    (h : action w = .error e v) : after action w = v := by
  unfold after
  rw [h]

/- A chain goes on after a success. -/
theorem after_bind_of_ok
    {first : Build ε α}
    {next : α → Build ε β}
    {a : α}
    (h : first w = .ok a v) :
    after (first >>= next) w = after (next a) v := by
  unfold after
  simp only [bind, EStateM.bind]
  rw [h]

/- And it ends with the first failure. -/
theorem after_bind_of_error
    {first : Build ε α}
    {next : α → Build ε β}
    {e : ε}
    (h : first w = .error e v) :
    after (first >>= next) w = v := by
  unfold after
  simp only [bind, EStateM.bind]
  rw [h]

/- What relates both parts of a chain relates the chain. -/
theorem related_after_bind
    (R : Workbench → Workbench → Prop)
    {first : Build ε α}
    {next : α → Build ε β}
    (hTrans : ∀ {w v u}, R w v → R v u → R w u)
    (hFirst : ∀ w, R w (after first w))
    (hNext : ∀ a w, R w (after (next a) w))
    (w : Workbench) :
    R w (after (first >>= next) w) := by
  have hReached := hFirst w
  cases hOutcome : first w with
  | ok a v =>
      rw [after_of_ok hOutcome] at hReached
      rw [after_bind_of_ok hOutcome]
      exact hTrans hReached (hNext a v)
  | error e v =>
      rw [after_of_error hOutcome] at hReached
      rw [after_bind_of_error hOutcome]
      exact hReached

end Build

/- An action that leaves every workbench framed. -/
def Build.Frames
    {ε α : Type}
    (allowed : String → Prop)
    (filterless : Prop)
    (action : Build ε α) : Prop :=
  ∀ w,
    Workbench.Framed allowed filterless w
      (Build.after action w)

variable {allowed : String → Prop}
variable {filterless : Prop}

namespace Workbench.Framed

variable {w v u : Workbench}

theorem refl (w : Workbench) :
    Framed allowed filterless w w where
  extensions := rfl
  filter := fun _ _ => rfl

/-
  The extensions at the beginning are those that count, so
  both parts are about the same ones.
-/
theorem trans
    (hFirst : Framed allowed filterless w v)
    (hSecond : Framed allowed filterless v u) :
    Framed allowed filterless w u where
  extensions :=
    hSecond.extensions.trans hFirst.extensions
  filter := by
    intro hFilterless hSheet
    have hNext : v.sheet.Filterless allowed := by
      unfold Stylesheet.Filterless at hSheet ⊢
      rw [hFirst.extensions]
      exact hSheet
    rw [hSecond.filter hFilterless hNext,
      hFirst.filter hFilterless hSheet]

/- Knowing less is enough to know the same. -/
theorem mono
    {other : Prop}
    (h : Framed allowed filterless w v)
    (hOther : other → filterless) :
    Framed allowed other w v where
  extensions := h.extensions
  filter := fun hKnown => h.filter (hOther hKnown)

end Workbench.Framed

namespace Build

open Workbench (Framed)

variable {ε α β : Type}

------------------------------------------------------------
-- Sequences
------------------------------------------------------------

/- Actions that leave the workbench alone. -/
theorem frames_pure (a : α) :
    Frames allowed filterless (pure a : Build ε α) :=
  fun w => .refl w

theorem frames_throw (e : ε) :
    Frames allowed filterless (throw e : Build ε α) :=
  fun w => .refl w

theorem frames_get :
    Frames allowed filterless (get : Build ε Workbench) :=
  fun w => .refl w

/- A chain leaves alone what both of its parts do. -/
theorem frames_bind
    {first : Build ε α}
    {next : α → Build ε β}
    (hFirst : Frames allowed filterless first)
    (hNext : ∀ a, Frames allowed filterless (next a)) :
    Frames allowed filterless (first >>= next) :=
  related_after_bind (Workbench.Framed allowed filterless)
    Workbench.Framed.trans hFirst hNext

/-
  What is only known under a condition is known under a
  stronger one.
-/
theorem Frames.mono
    {other : Prop}
    {action : Build ε α}
    (h : Frames allowed filterless action)
    (hOther : other → filterless) :
    Frames allowed other action :=
  fun w => (h w).mono hOther

------------------------------------------------------------
-- Single actions
------------------------------------------------------------

/- A computation adds to the log and to nothing else. -/
theorem frames_traced (t : Traced ε α) :
    Frames allowed filterless (traced t) := by
  intro w
  unfold after traced
  cases t.outcome with
  | ok a => exact ⟨rfl, fun _ _ => rfl⟩
  | error e => exact ⟨rfl, fun _ _ => rfl⟩

theorem frames_check (outcome : Except CompileError α) :
    Frames allowed filterless (check outcome) :=
  frames_traced _

theorem frames_emit (event : Event) :
    Frames allowed filterless (emit event : Build ε Unit) :=
  fun _ => ⟨rfl, fun _ _ => rfl⟩

/- Terms are evaluated without an effect. -/
theorem frames_evaluated
    (evaluation : Scope → Evaluation α) :
    Frames allowed filterless (evaluated evaluation) :=
  fun w => frames_traced _ w

theorem frames_rename (name : String) :
    Frames allowed filterless (rename name : Build ε Unit) :=
  fun _ => ⟨rfl, fun _ _ => rfl⟩

theorem frames_suppress :
    Frames allowed filterless (suppress : Build ε Unit) :=
  fun _ => ⟨rfl, fun _ _ => rfl⟩

/- The uncascaded condition is no filter. -/
theorem frames_uncascaded (args : List Value) :
    Frames allowed filterless
      (uncascaded args : Build ε Unit) :=
  fun _ => ⟨rfl, fun _ _ => rfl⟩

/-
  A `filter` statement keeps the extensions, and nothing is
  said about the filter.
-/
theorem frames_filter (args : List Value) :
    Frames allowed False (filter args : Build ε Unit) :=
  fun _ => ⟨rfl, False.elim⟩

/-
  An assignment changes properties or cascades, also if the
  property is named `filter`.
-/
theorem frames_assign
    (name : String)
    (value : Value) :
    Frames allowed filterless (assign name value) := by
  intro w
  unfold after assign EStateM.adaptExcept set
  cases hSet : w.layer.set name value with
  | error e => exact ⟨rfl, fun _ _ => rfl⟩
  | ok next =>
      refine ⟨rfl, fun _ _ => ?_⟩
      rcases Layer.set_cases hSet with
        ⟨condition, _, rfl⟩ | ⟨settled, _, _, rfl⟩
      · rfl
      · rfl

/-
  Whatever the body of a refinement does, the layer that is
  refined keeps its filter.
-/
theorem frames_refine
    {known : Prop}
    (args : List Value)
    {body : Build ε α}
    (hBody : Frames allowed known body) :
    Frames allowed filterless (refine args body) := by
  intro w
  let r := w.layer.refine args w.sheet.sources
  let begun : Workbench :=
    { layer := r.child
      sheet := w.sheet
      log := w.log ++ r.child.creationEvents }
  have hInside := (hBody begun).extensions
  unfold after at hInside ⊢
  unfold refine
  dsimp only
  cases hOutcome : body begun with
  | ok a v =>
      rw [hOutcome] at hInside
      exact ⟨hInside, fun _ _ => rfl⟩
  | error e v =>
      rw [hOutcome] at hInside
      exact ⟨hInside, fun _ _ => rfl⟩

/-
  A cascade works on the layer itself, so its body must not
  set the filter.
-/
theorem frames_cascade
    (args : List Value)
    {body : Build ε α}
    (hBody : Frames allowed filterless body) :
    Frames allowed filterless (cascade args body) := by
  intro w
  let begun : Workbench :=
    { w with
      layer :=
        { w.layer with
          active := Expression.condition? args } }
  have hInside := hBody begun
  unfold after at hInside ⊢
  unfold cascade
  dsimp only
  cases hOutcome : body begun with
  | ok a v =>
      rw [hOutcome] at hInside
      exact ⟨hInside.extensions, hInside.filter⟩
  | error e v =>
      rw [hOutcome] at hInside
      exact ⟨hInside.extensions, hInside.filter⟩

/- The way in which extensions are run frames. -/
def FramesExtensions
    (allowed : String → Prop)
    (run : Runner) : Prop :=
  ∀ name recipe args,
    Frames allowed (recipe.Filterless allowed)
      (run name recipe args)

variable {run : Runner}

/- No name but `filter` sets the filter. -/
theorem frames_callPlain
    (name : String)
    (args : List Value)
    (meaning : Meaning) :
    Frames allowed filterless (callPlain name args meaning) := by
  cases meaning with
  | extension => exact frames_pure none
  | function f =>
      exact frames_bind (frames_traced _) fun v =>
        frames_pure (some v)
  | property cls =>
      exact frames_bind (frames_assign _ _) fun _ =>
        frames_pure none
  | field => exact frames_pure _

/- Only extensions can set the filter in a call. -/
theorem frames_call
    (hRun : FramesExtensions allowed run)
    (name : String)
    (args : List Value) :
    Frames allowed (allowed name) (call run name args) := by
  intro w
  unfold after call
  cases hFound : w.sheet.extensions.get? name with
  | none =>
      exact
        frames_bind (frames_emit _)
          (fun _ => frames_callPlain name args _) w
  | some recipe =>
      have hCall :
          Frames allowed (recipe.Filterless allowed)
            (do
              emit (.resolved name .extension)
              run name recipe args
              pure none : Build Failure (Option Value)) :=
        frames_bind (frames_emit _) fun _ =>
          frames_bind (hRun name recipe args) fun _ =>
            frames_pure none
      have hReached := hCall w
      refine ⟨hReached.extensions, ?_⟩
      intro hAllowed hSheet
      exact
        hReached.filter (hSheet name recipe hAllowed hFound)
          hSheet

/- Running nothing is to frame as well. -/
theorem frames_done
    {action : Build Failure Unit}
    (h : Frames allowed filterless action) :
    Frames allowed filterless (done action) :=
  frames_bind h fun _ => frames_pure _

end Build

------------------------------------------------------------
-- Texts
------------------------------------------------------------

namespace Body

open Build

variable {run : Runner}

theorem frames_refuseBlock
    (name : String)
    (block : Option (List Statement)) :
    Frames allowed filterless (refuseBlock name block) := by
  cases block with
  | none => exact frames_pure ()
  | some statements => exact frames_check _

/- Of all keywords, only one sets the filter. -/
theorem frames_runSimple
    (hRun : FramesExtensions allowed run)
    {name : String}
    (args : List Value)
    (hOn : name ≠ "on")
    (hCascade : name ≠ "cascade") :
    Frames allowed
      (Statement.Filterless allowed (.mk name [] none))
      (runSimple run name args) := by
  by_cases hKeyword : name ∈ Statement.keywords
  · simp only [Statement.keywords, List.mem_cons,
      List.not_mem_nil, or_false, hOn, hCascade, false_or]
      at hKeyword
    rcases hKeyword with rfl | rfl | rfl | rfl
    · exact frames_uncascaded args
    · refine (frames_filter args).mono ?_
      intro hStatement
      exact hStatement.ne_filter rfl
    · exact
        frames_bind (frames_check _) fun _ => frames_rename _
    · exact frames_suppress
  · rw [runSimple_of_not_keyword run args hKeyword]
    refine frames_bind ?_ ?_
    · refine (frames_call hRun name args).mono ?_
      intro hStatement
      exact hStatement.allowed_of_not_keyword hKeyword
    · intro answer
      cases answer with
      | none => exact frames_pure ()
      | some v => exact frames_emit _

mutual

/-
  A statement that sets no filter, by recursion into the
  blocks of cascades. What an `on` block contains does not
  matter.
-/
theorem frames_runStatement
    (hRun : FramesExtensions allowed run) :
    (statement : Statement) →
      Frames allowed (statement.Filterless allowed)
        (runStatement run statement)
  | .mk name args block => by
      unfold runStatement
      refine frames_bind (frames_evaluated _) ?_
      intro values
      split
      · exact
          frames_refine values (frames_runBlock hRun block)
      · refine frames_cascade values ?_
        refine (frames_runBlock hRun block).mono ?_
        intro hStatement
        exact hStatement.cascade_block rfl
      · next hOn hCascade =>
          refine frames_bind (frames_refuseBlock _ _) ?_
          intro _
          refine (frames_runSimple hRun values hOn
            hCascade).mono ?_
          intro hStatement
          exact hStatement.simple hCascade

theorem frames_runStatements
    (hRun : FramesExtensions allowed run) :
    (statements : List Statement) →
      Frames allowed
        (∀ statement ∈ statements,
          statement.Filterless allowed)
        (runStatements run statements)
  | [] => by
      unfold runStatements
      exact frames_pure ()
  | statement :: rest => by
      unfold runStatements
      refine frames_bind ?_ ?_
      · refine (frames_runStatement hRun statement).mono ?_
        intro hAll
        exact hAll statement List.mem_cons_self
      · intro _
        refine (frames_runStatements hRun rest).mono ?_
        intro hAll other hOther
        exact hAll other (List.mem_cons_of_mem _ hOther)

theorem frames_runBlock
    (hRun : FramesExtensions allowed run) :
    (block : Option (List Statement)) →
      Frames allowed
        (∀ statement ∈ block.getD [],
          statement.Filterless allowed)
        (runBlock run block)
  | none => by
      unfold runBlock
      exact frames_pure ()
  | some statements => by
      unfold runBlock
      exact frames_runStatements hRun statements

end

end Body

------------------------------------------------------------
-- Recipes
------------------------------------------------------------

namespace Build

variable {run : Runner}

/-
  A text that is read at run time is known by the program
  that it is read as.
-/
theorem frames_runText
    (hRun : FramesExtensions allowed run)
    (source : String) :
    Frames allowed
      (∀ program,
        Program.read source = .ok program →
          ∀ statement ∈ program, statement.Filterless allowed)
      (runText run source) := by
  unfold runText
  cases hRead : Program.read source with
  | error e => exact frames_throw _
  | ok program =>
      refine (Body.frames_runStatements hRun program).mono ?_
      intro hProgram
      exact hProgram program rfl

theorem frames_evaluateText (source : String) :
    Frames allowed filterless (evaluateText source) := by
  unfold evaluateText
  cases Term.read source with
  | error e => exact frames_throw _
  | ok term => exact frames_evaluated _

theorem frames_update
    (name : String)
    (value : Value) :
    Frames allowed filterless (update name value) :=
  fun w => frames_assign name _ w

/-
  The steps without a body; a step that is not filterless
  keeps the extensions at least.
-/
theorem frames_runPlain
    {scope : RecipeScope}
    (hRun : FramesExtensions allowed scope.runner)
    (action : Action)
    (caught : Bool) :
    Frames allowed
      (Step.Filterless allowed (.mk action caught))
      (runPlain scope action) := by
  cases action with
  | set name value =>
      exact frames_bind (frames_traced _) fun _ =>
        frames_done (frames_assign _ _)
  | update name value =>
      exact frames_bind (frames_traced _) fun _ =>
        frames_done (frames_update _ _)
  | rename name =>
      exact frames_done (frames_rename name)
  | suppress => exact frames_done frames_suppress
  | filter args =>
      refine frames_bind (frames_traced _) fun values => ?_
      refine frames_done ((frames_filter values).mono ?_)
      rintro (_ | _ | _ | _ | ⟨_, hHarmless⟩)
      cases hHarmless
  | uncascaded args =>
      exact frames_bind (frames_traced _) fun _ =>
        frames_done (frames_uncascaded _)
  | refine args body => exact frames_pure _
  | cascade args body => exact frames_pure _
  | call name args =>
      refine frames_bind (frames_traced _) fun values => ?_
      refine frames_bind ?_ fun _ => frames_pure _
      refine (frames_call hRun name values).mono ?_
      intro hStep
      cases hStep with
      | call _ _ hCall => exact hCall
      | plain _ hHarmless => cases hHarmless
  | valueOf name args =>
      exact frames_bind (frames_traced _) fun _ =>
        frames_bind (frames_evaluated _) fun _ =>
          frames_pure _
  | currentValue name =>
      exact frames_bind frames_get fun _ => frames_pure _
  | literal args =>
      exact frames_bind (frames_traced _) fun _ =>
        frames_pure _
  | any args =>
      exact frames_bind (frames_traced _) fun _ =>
        frames_pure _
  | all args =>
      exact frames_bind (frames_traced _) fun _ =>
        frames_pure _
  | statements source =>
      refine frames_done ((frames_runText hRun source).mono ?_)
      intro hStep
      cases hStep with
      | statements _ hProgram => exact hProgram
      | plain _ hHarmless => cases hHarmless
  | evaluate source =>
      exact frames_bind (frames_evaluateText source) fun _ =>
        frames_pure _

end Build

/- A step is seen through the workbench after its entry. -/
def Step.Frames
    (allowed : String → Prop)
    (filterless : Prop)
    (run : Workbench → Entry × Workbench) : Prop :=
  ∀ w, Workbench.Framed allowed filterless w (run w).2

namespace Entry

open Build

theorem frames_ofPlain
    {action : Build Failure Answer}
    (h : Frames allowed filterless action) :
    Step.Frames allowed filterless (ofPlain action) := by
  intro w
  have hReached := h w
  unfold after at hReached
  unfold ofPlain
  cases hOutcome : action w with
  | ok a v =>
      rw [hOutcome] at hReached
      exact hReached
  | error e v =>
      rw [hOutcome] at hReached
      exact hReached

/-
  The frame of a step with a body is that of the arguments
  and of the body.
-/
theorem frames_ofBody
    {args : Build Failure (List Value)}
    {action : List Value → Build Interrupted (List Entry)}
    (hArgs : Frames allowed filterless args)
    (hAction :
      ∀ values, Frames allowed filterless (action values)) :
    Step.Frames allowed filterless (ofBody args action) := by
  intro w
  have hReached := hArgs w
  unfold after at hReached
  unfold ofBody
  cases hOutcome : args w with
  | error e v =>
      rw [hOutcome] at hReached
      exact hReached
  | ok values v =>
      rw [hOutcome] at hReached
      have hInside := hAction values v
      unfold after at hInside
      dsimp only
      cases hBody : action values v with
      | ok entries u =>
          rw [hBody] at hInside
          exact hReached.trans hInside
      | error e u =>
          rw [hBody] at hInside
          exact hReached.trans hInside

end Entry

open Build

mutual

/-
  Steps and their bodies, by recursion into the bodies of
  cascades.
-/
theorem Step.frames_run
    {scope : RecipeScope}
    (hRun : FramesExtensions allowed scope.runner) :
    (step : Step) →
      Step.Frames allowed (step.Filterless allowed)
        (Step.run scope step)
  | .mk action caught => by
      cases action with
      | refine args body =>
          exact
            Entry.frames_ofBody (frames_traced _)
              fun values =>
                frames_refine values
                  (Steps.frames_run hRun body)
      | cascade args body =>
          refine
            Entry.frames_ofBody (frames_traced _)
              fun values => ?_
          refine frames_cascade values ?_
          refine (Steps.frames_run hRun body).mono ?_
          intro hStep
          cases hStep with
          | cascade _ _ hBody => exact hBody
          | plain _ hHarmless => cases hHarmless
      | _ =>
          exact
            Entry.frames_ofPlain (frames_runPlain hRun _ caught)

theorem Steps.frames_run
    {scope : RecipeScope}
    (hRun : FramesExtensions allowed scope.runner) :
    (steps : List Step) →
      Frames allowed (∀ step ∈ steps, step.Filterless allowed)
        (Steps.run scope steps)
  | [] => fun w => .refl w
  | .mk action caught :: rest => by
      intro w
      have hStep :=
        (Step.frames_run hRun (.mk action caught) w).mono
          fun hAll :
              ∀ step ∈ Step.mk action caught :: rest,
                step.Filterless allowed =>
            hAll _ List.mem_cons_self
      have hRest :=
        (Steps.frames_run hRun rest).mono
          fun hAll :
              ∀ step ∈ Step.mk action caught :: rest,
                step.Filterless allowed =>
            fun step hMem =>
              hAll step (List.mem_cons_of_mem _ hMem)
      rcases hEntry :
          Step.run scope (.mk action caught) w with
        ⟨entry, v⟩
      rw [hEntry] at hStep
      have hLater := hRest v
      unfold after at hLater ⊢
      unfold Steps.run
      simp only [hEntry]
      -- The rest is reached unless a failure is not caught.
      cases hOutcome : Steps.run scope rest v with
      | ok entries u =>
          rw [hOutcome] at hLater
          cases entry.failure? with
          | none => exact hStep.trans hLater
          | some e =>
              cases caught with
              | true => exact hStep.trans hLater
              | false => exact hStep
      | error e u =>
          rw [hOutcome] at hLater
          cases entry.failure? with
          | none => exact hStep.trans hLater
          | some failure =>
              cases caught with
              | true => exact hStep.trans hLater
              | false => exact hStep

end

namespace Recipe

/- A recipe is filterless if its steps are. -/
theorem frames_run
    (scope : RecipeScope)
    (hRun : FramesExtensions allowed scope.runner)
    (recipe : Recipe) :
    Frames allowed (recipe.Filterless allowed)
      (recipe.run scope) := by
  intro w
  have hSteps := Steps.frames_run hRun recipe.steps w
  unfold after at hSteps ⊢
  unfold run
  cases hOutcome : Steps.run scope recipe.steps w with
  | ok entries v =>
      rw [hOutcome] at hSteps
      exact hSteps
  | error e v =>
      rw [hOutcome] at hSteps
      exact hSteps

/- Extensions frame, however deeply they call each other. -/
theorem frames_runnerWithin (bound : Nat) :
    FramesExtensions allowed (runnerWithin bound) := by
  induction bound with
  | zero =>
      intro name recipe args
      exact frames_check _
  | succ bound ih =>
      intro name recipe args
      exact frames_run ⟨args, runnerWithin bound⟩ ih recipe

end Recipe

end MapStyle
