import MapStyle.Evaluation.Program

/-
  A property of actions that holds of every single one, and
  is kept when they are put together, holds of all bodies,
  recipes and programs. The walk through statements and steps
  is made here once, for any such property.

  Key definitions include:
    * `Build.Closed`
    * `Sheet.Closed`

  Main statements:
    * `Build.Closed.runBlock`
    * `Build.Closed.runSteps`
    * `Build.Closed.runnerWithin`
    * `Sheet.Closed.runStatement`
    * `Sheet.Closed.runWithin`
    * `Sheet.Closed.load`
-/

namespace MapStyle

------------------------------------------------------------
-- Closed properties
------------------------------------------------------------

namespace Build

variable {ε ε' α β : Type}

/- Run an action and go on, whether it succeeds or fails. -/
def settled (action : Build ε α) : Build ε' (Except ε α) :=
  fun w =>
    match action w with
    | .ok a v => .ok (.ok a) v
    | .error e v => .ok (.error e) v

/- What follows a settled action is told how it went. -/
theorem settled_bind_ok
    {action : Build ε α}
    {next : Except ε α → Build ε' β}
    {w v : Workbench}
    {a : α}
    (h : action w = .ok a v) :
    (settled action >>= next) w = next (.ok a) v := by
  have hSettled :
      (settled action : Build ε' _) w = .ok (.ok a) v := by
    unfold settled
    rw [h]
  simp only [bind, EStateM.bind, hSettled]

/- A failure does not end the chain. -/
theorem settled_bind_error
    {action : Build ε α}
    {next : Except ε α → Build ε' β}
    {w v : Workbench}
    {e : ε}
    (h : action w = .error e v) :
    (settled action >>= next) w = next (.error e) v := by
  have hSettled :
      (settled action : Build ε' _) w = .ok (.error e) v := by
    unfold settled
    rw [h]
  simp only [bind, EStateM.bind, hSettled]

/- A property of actions that is kept by all that bodies do. -/
structure Closed
    (P : (ε α : Type) → Build ε α → Prop) : Prop where
  pure :
    ∀ {ε α : Type} (a : α), P ε α (Pure.pure a)
  throw :
    ∀ {ε α : Type} (e : ε), P ε α (MonadExcept.throw e)
  bind :
    ∀ {ε α β : Type}
      {first : Build ε α}
      {next : α → Build ε β},
      P ε α first →
        (∀ a, P ε β (next a)) → P ε β (first >>= next)
  settled :
    ∀ {ε ε' α : Type} {action : Build ε α},
      P ε α action → P ε' (Except ε α) (settled action)
  reads :
    ∀ {ε α : Type} (action : Layer → Stylesheet → Build ε α),
      (∀ layer sheet, P ε α (action layer sheet)) →
        P ε α fun w => action w.layer w.sheet w
  traced :
    ∀ {ε α : Type} (t : Traced ε α), P ε α (traced t)
  emit :
    ∀ {ε : Type} (event : Event), P ε Unit (emit event)
  assign :
    ∀ name value, P Failure Unit (assign name value)
  rename :
    ∀ {ε : Type} (name : String), P ε Unit (rename name)
  suppress :
    ∀ {ε : Type}, P ε Unit suppress
  filter :
    ∀ {ε : Type} (args : List Value), P ε Unit (filter args)
  uncascaded :
    ∀ {ε : Type} (args : List Value),
      P ε Unit (uncascaded args)
  refine :
    ∀ {ε α : Type} (args : List Value) {body : Build ε α},
      P ε α body → P ε α (refine args body)
  cascade :
    ∀ {ε α : Type} (args : List Value) {body : Build ε α},
      P ε α body → P ε α (cascade args body)

namespace Closed

variable {P : (ε α : Type) → Build ε α → Prop}
variable {run : Runner}

------------------------------------------------------------
-- Calls
------------------------------------------------------------

/- A check logs and answers, like any computation. -/
theorem check
    (hP : Closed P)
    (outcome : Except CompileError α) :
    P Failure α (check outcome) :=
  hP.traced _

/-
  An evaluation reads the layer and the extensions, and
  nothing else of the workbench.
-/
theorem evaluated
    (hP : Closed P)
    (evaluation : Scope → Evaluation α) :
    P Failure α (evaluated evaluation) :=
  hP.reads
    (fun layer sheet =>
      Build.traced
        ((evaluation ⟨sheet.extensions, some layer⟩).mapError
          Failure.compile))
    fun _ _ => hP.traced _

/-
  Of the names that are no extensions, properties alone
  change the layer.
-/
theorem callPlain
    (hP : Closed P)
    (name : String)
    (args : List Value)
    (meaning : Meaning) :
    P Failure _ (callPlain name args meaning) := by
  cases meaning with
  | extension => exact hP.pure none
  | function f =>
      exact hP.bind (hP.check _) fun v => hP.pure (some v)
  | property cls =>
      exact hP.bind (hP.assign _ _) fun _ => hP.pure none
  | field => exact hP.pure _

/- Extensions run by actions that have the property. -/
def Runs
    (P : (ε α : Type) → Build ε α → Prop)
    (run : Runner) : Prop :=
  ∀ name recipe args, P Failure Unit (run name recipe args)

/- A call where the extensions of a stylesheet are known. -/
def callIn
    (run : Runner)
    (name : String)
    (args : List Value)
    (sheet : Stylesheet) : Build Failure (Option Value) :=
  fun w =>
    match sheet.extensions.get? name with
    | some recipe =>
        (do
          Build.emit (.resolved name .extension)
          run name recipe args
          Pure.pure none : Build Failure (Option Value)) w
    | none =>
        (do
          Build.emit (.resolved name (Meaning.ofName name))
          Build.callPlain name args (Meaning.ofName name)) w

/-
  An extension is run by a runner of which the property has
  to be known.
-/
theorem call
    (hP : Closed P)
    (hRun : Runs P run)
    (name : String)
    (args : List Value) :
    P Failure _ (call run name args) := by
  refine hP.reads (fun _ sheet => callIn run name args sheet) ?_
  intro layer sheet
  unfold callIn
  cases sheet.extensions.get? name with
  | none =>
      exact
        hP.bind (hP.emit _) fun _ => hP.callPlain name args _
  | some recipe =>
      exact
        hP.bind (hP.emit _) fun _ =>
          hP.bind (hRun name recipe args) fun _ => hP.pure none

------------------------------------------------------------
-- Statements
------------------------------------------------------------

theorem refuseBlock
    (hP : Closed P)
    (name : String)
    (block : Option (List Statement)) :
    P Failure Unit (Body.refuseBlock name block) := by
  cases block with
  | none => exact hP.pure ()
  | some statements => exact hP.check _

/-
  Statements with a block of their own are left to the walk
  through the statements.
-/
theorem runSimple
    (hP : Closed P)
    (hRun : Runs P run)
    (name : String)
    (args : List Value) :
    P Failure Unit (Body.runSimple run name args) := by
  unfold Body.runSimple
  split
  · exact hP.uncascaded args
  · exact hP.filter args
  · exact hP.bind (hP.check _) fun text => hP.rename text
  · exact hP.suppress
  · refine hP.bind (hP.call hRun name args) ?_
    intro answer
    cases answer with
    | none => exact hP.pure ()
    | some v => exact hP.emit _

mutual

/- The walk follows the statements down into their blocks. -/
theorem runStatement
    (hP : Closed P)
    (hRun : Runs P run) :
    (statement : Statement) →
      P Failure Unit (Body.runStatement run statement)
  | .mk name args block => by
      unfold Body.runStatement
      refine hP.bind (hP.evaluated _) ?_
      intro values
      split
      · exact hP.refine values (runBlock hP hRun block)
      · exact hP.cascade values (runBlock hP hRun block)
      · exact
          hP.bind (hP.refuseBlock _ _) fun _ =>
            hP.runSimple hRun _ values

theorem runStatements
    (hP : Closed P)
    (hRun : Runs P run) :
    (statements : List Statement) →
      P Failure Unit (Body.runStatements run statements)
  | [] => by
      unfold Body.runStatements
      exact hP.pure ()
  | statement :: rest => by
      unfold Body.runStatements
      exact
        hP.bind (runStatement hP hRun statement) fun _ =>
          runStatements hP hRun rest

/- A body of a text, whatever it contains. -/
theorem runBlock
    (hP : Closed P)
    (hRun : Runs P run) :
    (block : Option (List Statement)) →
      P Failure Unit (Body.runBlock run block)
  | none => by
      unfold Body.runBlock
      exact hP.pure ()
  | some statements => by
      unfold Body.runBlock
      exact runStatements hP hRun statements

end

------------------------------------------------------------
-- Single steps
------------------------------------------------------------

/- A text is either a failure or a list of statements. -/
theorem runText
    (hP : Closed P)
    (hRun : Runs P run)
    (source : String) :
    P Failure Unit (runText run source) := by
  unfold Build.runText
  cases Program.read source with
  | error e => exact hP.throw _
  | ok program => exact hP.runStatements hRun program

theorem evaluateText
    (hP : Closed P)
    (source : String) :
    P Failure Value (evaluateText source) := by
  unfold Build.evaluateText
  cases Term.read source with
  | error e => exact hP.throw _
  | ok term => exact hP.evaluated _

theorem done
    (hP : Closed P)
    {action : Build Failure Unit}
    (h : P Failure Unit action) :
    P Failure Answer (done action) :=
  hP.bind h fun _ => hP.pure _

/-
  The steps of a recipe are the operations of the builder,
  one by one; those with a body inside are not run here.
-/
theorem runPlain
    (hP : Closed P)
    {scope : RecipeScope}
    (hRun : Runs P scope.runner)
    (action : Action) :
    P Failure Answer (runPlain scope action) := by
  cases action with
  | set name value =>
      exact hP.bind (hP.traced _) fun _ =>
        hP.done (hP.assign _ _)
  | update name value =>
      exact hP.bind (hP.traced _) fun v =>
        hP.done (hP.reads
          (fun layer _ =>
            Build.assign name
              (.list [(layer.get? name).getD .null, v]))
          fun _ _ => hP.assign _ _)
  | rename name => exact hP.done (hP.rename name)
  | suppress => exact hP.done hP.suppress
  | filter args =>
      exact hP.bind (hP.traced _) fun values =>
        hP.done (hP.filter values)
  | uncascaded args =>
      exact hP.bind (hP.traced _) fun values =>
        hP.done (hP.uncascaded values)
  | refine args body => exact hP.pure _
  | cascade args body => exact hP.pure _
  | call name args =>
      exact hP.bind (hP.traced _) fun values =>
        hP.bind (hP.call hRun name values) fun _ => hP.pure _
  | valueOf name args =>
      exact hP.bind (hP.traced _) fun _ =>
        hP.bind (hP.evaluated _) fun _ => hP.pure _
  | currentValue name =>
      exact hP.reads
        (fun layer _ =>
          Pure.pure (Answer.optional (layer.get? name)))
        fun _ _ => hP.pure _
  | literal args =>
      exact hP.bind (hP.traced _) fun _ => hP.pure _
  | any args =>
      exact hP.bind (hP.traced _) fun _ => hP.pure _
  | all args =>
      exact hP.bind (hP.traced _) fun _ => hP.pure _
  | statements source =>
      exact hP.done (hP.runText hRun source)
  | evaluate source =>
      exact hP.bind (hP.evaluateText source) fun _ =>
        hP.pure _

------------------------------------------------------------
-- Entries
------------------------------------------------------------

/- A step as an action that answers with its entry. -/
def entered
    (step : Workbench → Entry × Workbench) : Build ε Entry :=
  fun w => .ok (step w).1 (step w).2

/- An entry is an answer like any other. -/
theorem entered_bind
    (step : Workbench → Entry × Workbench)
    (next : Entry → Build ε α)
    (w : Workbench) :
    (entered step >>= next) w = next (step w).1 (step w).2 :=
  rfl

/- Answer with an entry that shows the layer as it is. -/
def seen
    (outcome : Except Failure Answer)
    (body : Option (List Entry)) : Build ε Entry :=
  fun w => .ok (.mk outcome w.layer body) w

theorem seen_closed
    (hP : Closed P)
    (outcome : Except Failure Answer)
    (body : Option (List Entry)) :
    P ε Entry (seen outcome body) :=
  hP.reads
    (fun layer _ => Pure.pure (Entry.mk outcome layer body))
    fun _ _ => hP.pure _

/-
  An entry of a plain step hides a failure of it: the step
  is settled, and what follows looks at the layer.
-/
theorem ofPlain
    (hP : Closed P)
    {action : Build Failure Answer}
    (h : P Failure Answer action) :
    P ε Entry (entered (Entry.ofPlain action)) := by
  have hSame :
      (entered (Entry.ofPlain action) : Build ε Entry) =
        Build.settled action >>= fun outcome =>
          seen outcome none := by
    funext w
    unfold entered Entry.ofPlain
    cases hOutcome : action w with
    | ok a v =>
        rw [settled_bind_ok hOutcome]
        rfl
    | error e v =>
        rw [settled_bind_error hOutcome]
        rfl
  rw [hSame]
  exact hP.bind (hP.settled h) fun _ => hP.seen_closed _ _

/-
  The same where a body is run after its arguments are
  known.
-/
theorem ofBody
    (hP : Closed P)
    {args : Build Failure (List Value)}
    {action : List Value → Build Interrupted (List Entry)}
    (hArgs : P Failure (List Value) args)
    (hAction :
      ∀ values, P Interrupted (List Entry) (action values)) :
    P ε Entry (entered (Entry.ofBody args action)) := by
  have hSame :
      (entered (Entry.ofBody args action) : Build ε Entry) =
        Build.settled args >>= fun filled =>
          match filled with
          | .error e => seen (.error e) (some [])
          | .ok values =>
              Build.settled (action values) >>= fun inside =>
                match inside with
                | .ok entries => seen (.ok .done) (some entries)
                | .error e =>
                    seen (.error e.failure)
                      (some e.entries) := by
    funext w
    unfold entered Entry.ofBody
    cases hArgs : args w with
    | error e v =>
        rw [settled_bind_error hArgs]
        rfl
    | ok values v =>
        rw [settled_bind_ok hArgs]
        dsimp only
        cases hBody : action values v with
        | ok entries u =>
            rw [settled_bind_ok hBody]
            rfl
        | error e u =>
            rw [settled_bind_error hBody]
            rfl
  rw [hSame]
  refine hP.bind (hP.settled hArgs) ?_
  intro filled
  cases filled with
  | error e => exact hP.seen_closed _ _
  | ok values =>
      refine hP.bind (hP.settled (hAction values)) ?_
      intro inside
      cases inside with
      | ok entries => exact hP.seen_closed _ _
      | error e => exact hP.seen_closed _ _

------------------------------------------------------------
-- Recipes
------------------------------------------------------------

/- Run the other steps and put an entry in front. -/
def goOn
    (rest : Build Interrupted (List Entry))
    (entry : Entry) : Build Interrupted (List Entry) := do
  match ← Build.settled rest with
  | .ok entries => Pure.pure (entry :: entries)
  | .error i =>
      MonadExcept.throw ⟨i.failure, entry :: i.entries⟩

/- The entry stands in front, also if the rest fails. -/
theorem goOn_apply
    (rest : Build Interrupted (List Entry))
    (entry : Entry)
    (w : Workbench) :
    goOn rest entry w =
      match rest w with
      | .ok entries v => .ok (entry :: entries) v
      | .error i v =>
          .error ⟨i.failure, entry :: i.entries⟩ v := by
  unfold goOn
  cases hRest : rest w with
  | ok entries v =>
      rw [settled_bind_ok hRest]
      rfl
  | error i v =>
      rw [settled_bind_error hRest]
      rfl

/-
  What follows a step: the others, unless it failed and the
  failure is not caught.
-/
def after
    (rest : Build Interrupted (List Entry))
    (caught : Bool)
    (entry : Entry) : Build Interrupted (List Entry) :=
  match entry.failure?, caught with
  | some e, false => MonadExcept.throw ⟨e, [entry]⟩
  | _, _ => goOn rest entry

/- Whether the rest is run depends on the entry alone. -/
theorem after_closed
    (hP : Closed P)
    {rest : Build Interrupted (List Entry)}
    (hRest : P Interrupted (List Entry) rest)
    (caught : Bool)
    (entry : Entry) :
    P Interrupted (List Entry) (after rest caught entry) := by
  unfold after
  split
  · exact hP.throw _
  · refine hP.bind (hP.settled hRest) ?_
    intro outcome
    cases outcome with
    | ok entries => exact hP.pure _
    | error i => exact hP.throw _

/-
  A run of steps as a chain, which is the form that closed
  properties are about.
-/
theorem runSteps_cons
    (scope : RecipeScope)
    (action : Action)
    (caught : Bool)
    (rest : List Step) :
    Steps.run scope (.mk action caught :: rest) =
      entered (Step.run scope (.mk action caught)) >>=
        after (Steps.run scope rest) caught := by
  funext w
  rw [Steps.run]
  rcases hEntry : Step.run scope (.mk action caught) w with
    ⟨entry, v⟩
  rw [entered_bind, hEntry]
  unfold after
  dsimp only
  rw [hEntry]
  dsimp only
  cases entry.failure? with
  | none => exact (goOn_apply _ entry v).symm
  | some e =>
      cases caught with
      | true => exact (goOn_apply _ entry v).symm
      | false => rfl

mutual

/- The walk follows the steps down into their bodies. -/
theorem runStep
    (hP : Closed P)
    {scope : RecipeScope}
    (hRun : Runs P scope.runner) :
    (step : Step) →
      P Interrupted Entry (entered (Step.run scope step))
  | .mk action caught => by
      cases action with
      | refine args body =>
          exact
            hP.ofBody (hP.traced _) fun values =>
              hP.refine values (runSteps hP hRun body)
      | cascade args body =>
          exact
            hP.ofBody (hP.traced _) fun values =>
              hP.cascade values (runSteps hP hRun body)
      | _ => exact hP.ofPlain (hP.runPlain hRun _)

theorem runSteps
    (hP : Closed P)
    {scope : RecipeScope}
    (hRun : Runs P scope.runner) :
    (steps : List Step) →
      P Interrupted (List Entry) (Steps.run scope steps)
  | [] => hP.pure []
  | .mk action caught :: rest => by
      rw [runSteps_cons]
      exact
        hP.bind (runStep hP hRun (.mk action caught)) fun _ =>
          hP.after_closed (runSteps hP hRun rest) _ _

end

/- A recipe passes on the failure of its steps. -/
theorem runRecipe
    (hP : Closed P)
    {scope : RecipeScope}
    (hRun : Runs P scope.runner)
    (recipe : Recipe) :
    P Failure Unit (recipe.run scope) := by
  have hSame :
      recipe.run scope =
        (Build.settled (Steps.run scope recipe.steps) >>=
          fun outcome =>
            match outcome with
            | .ok _ => Pure.pure ()
            | .error i => MonadExcept.throw i.failure) := by
    funext w
    unfold Recipe.run
    cases hSteps : Steps.run scope recipe.steps w with
    | ok entries v =>
        rw [settled_bind_ok hSteps]
        rfl
    | error i v =>
        rw [settled_bind_error hSteps]
        rfl
  rw [hSame]
  refine hP.bind (hP.settled (hP.runSteps hRun _)) ?_
  intro outcome
  cases outcome with
  | ok entries => exact hP.pure ()
  | error i => exact hP.throw _

/- Extensions, however deeply they call each other. -/
theorem runnerWithin
    (hP : Closed P)
    (bound : Nat) :
    Runs P (Recipe.runnerWithin bound) := by
  induction bound with
  | zero =>
      intro name recipe args
      exact hP.check _
  | succ bound ih =>
      intro name recipe args
      exact hP.runRecipe ih recipe

end Closed

end Build

------------------------------------------------------------
-- Programs
------------------------------------------------------------

namespace Sheet

/-
  The same for actions on a stylesheet, where the bodies of
  layers have a property of their own.
-/
structure Closed
    (P : (α : Type) → Sheet Failure α → Prop)
    (Q : (ε α : Type) → Build ε α → Prop) : Prop where
  bodies : Build.Closed Q
  pure :
    ∀ {α : Type} (a : α), P α (Pure.pure a)
  throw :
    ∀ {α : Type} (e : Failure), P α (MonadExcept.throw e)
  bind :
    ∀ {α β : Type}
      {first : Sheet Failure α}
      {next : α → Sheet Failure β},
      P α first → (∀ a, P β (next a)) → P β (first >>= next)
  reads :
    ∀ {α : Type} (action : Stylesheet → Sheet Failure α),
      (∀ sheet, P α (action sheet)) →
        P α fun s => action s.sheet s
  traced :
    ∀ {α : Type} (t : Traced Failure α), P α (traced t)
  declareSource :
    ∀ name options,
      P Unit (modifySheet fun sheet =>
        sheet.declareSource name options)
  setProperty :
    ∀ name value,
      P Unit (modifySheet fun sheet =>
        sheet.setProperty name value)
  layer :
    ∀ (id : String)
      (options : List (String × Value))
      {body : Build Failure Unit},
      Q Failure Unit body → P Unit (layer id options body)

namespace Closed

variable {α : Type}
variable {P : (α : Type) → Sheet Failure α → Prop}
variable {Q : (ε α : Type) → Build ε α → Prop}
variable {splice : String → Sheet Failure Unit}

theorem check
    (hP : Closed P Q)
    (outcome : Except CompileError α) :
    P α (check outcome) :=
  hP.traced _

/- An evaluation at the top level reads the extensions. -/
theorem evaluated
    (hP : Closed P Q)
    (evaluation : Scope → Evaluation α) :
    P α (evaluated evaluation) :=
  hP.reads
    (fun sheet =>
      Sheet.traced
        ((evaluation (Scope.topLevel sheet)).mapError
          Failure.compile))
    fun _ => hP.traced _

theorem refuseBlock
    (hP : Closed P Q)
    (name : String)
    (block : Option (List Statement)) :
    P Unit (Program.refuseBlock name block) := by
  cases block with
  | none => exact hP.pure ()
  | some statements => exact hP.check _

/-
  A statement of the top level declares a source, defines a
  layer, includes a text or sets a property.
-/
theorem runStatement
    (hP : Closed P Q)
    (hSplice : ∀ file, P Unit (splice file))
    (statement : Statement) :
    P Unit (Program.runStatement splice statement) := by
  unfold Program.runStatement
  refine hP.bind (hP.evaluated _) ?_
  intro values
  split
  · refine hP.bind (hP.refuseBlock _ _) fun _ => ?_
    refine hP.bind (hP.check _) ?_
    rintro ⟨name, options⟩
    exact hP.declareSource name options
  · refine hP.bind (hP.check _) ?_
    rintro ⟨id, options⟩
    exact
      hP.layer id options
        (hP.bodies.runBlock (hP.bodies.runnerWithin _) _)
  · refine hP.bind (hP.refuseBlock _ _) fun _ => ?_
    exact hP.bind (hP.check _) hSplice
  · refine hP.bind (hP.refuseBlock _ _) fun _ => ?_
    exact hP.setProperty _ _

theorem runTopLevel
    (hP : Closed P Q)
    (hSplice : ∀ file, P Unit (splice file))
    (program : Program) :
    P Unit (Program.runTopLevel splice program) := by
  induction program with
  | nil => exact hP.pure ()
  | cons statement rest ih =>
      exact
        hP.bind (hP.runStatement hSplice statement) fun _ => ih

/- A text is found and read, or there is a failure. -/
theorem included
    (hP : Closed P Q)
    (texts : Texts)
    (file : String) :
    P Program (Program.included texts file) := by
  unfold Program.included
  cases texts file with
  | error cause => exact hP.check _
  | ok text =>
      refine hP.bind (hP.traced _) fun _ => ?_
      cases Program.read text with
      | error e => exact hP.throw _
      | ok program => exact hP.pure program

/-
  Included texts are programs again, by induction on how
  deeply they may still include each other.
-/
theorem runWithin
    (hP : Closed P Q)
    (texts : Texts)
    (bound : Nat)
    (program : Program) :
    P Unit (Program.runWithin texts bound program) := by
  induction bound generalizing program with
  | zero => exact hP.runTopLevel (fun _ => hP.check _) _
  | succ bound ih =>
      refine hP.runTopLevel (fun file => ?_) _
      exact hP.bind (hP.included texts file) ih

/- A whole program, from its text. -/
theorem load
    (hP : Closed P Q)
    (texts : Texts)
    (source : String) :
    P Unit (load texts source) := by
  unfold Sheet.load
  cases Program.read source with
  | error e => exact hP.throw _
  | ok program => exact hP.runWithin texts _ program

end Closed

end Sheet

end MapStyle
