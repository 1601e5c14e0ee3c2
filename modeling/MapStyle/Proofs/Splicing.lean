import Mathlib
import MapStyle.Document
import MapStyle.Proofs.ProgramRun
import MapStyle.Proofs.Reachable
import MapStyle.Proofs.Unlogged

/-
  Including a text means running its statements in place of
  the statement that includes it. A program whose includes
  resolve, and are not nested too deep, runs like the one in
  which they are replaced; a program that reaches an include
  that is nested too deep fails, and so does one whose
  includes go round in a circle.

  Key definitions include:
    * `Statement.includedFile?`
    * `Program.expanded`
    * `Program.Resolves`
    * `Program.Overruns`
    * `Program.IncludesAny`

  Main statements:
    * `Program.Resolves.alike`
    * `Program.Overruns.fails`
    * `Program.not_ok_of_includesAny`
    * `Program.run_expanded`
-/

namespace MapStyle

open MapStyle.Action

------------------------------------------------------------
-- Extensions
------------------------------------------------------------

/- Work on a layer registers no extensions. -/
theorem Layer.Works.extensions
    {layer last : Layer}
    {sheet reached : Stylesheet}
    (h : Works layer sheet last reached) :
    reached.extensions = sheet.extensions := by
  induction h with
  | trans _ _ ihFirst ihSecond =>
      exact ihSecond.trans ihFirst
  | refine _ _ ih => exact ih
  | giveUp _ _ ih => exact ih
  | cascade _ _ ih => exact ih
  | _ => rfl

namespace Sheet

variable {α β : Type}

/- An action that leaves the extensions as they are. -/
def KeepsExtensions (action : Sheet Failure α) : Prop :=
  ∀ s,
    (after action s).sheet.extensions = s.sheet.extensions

theorem keepsExtensions_bind
    {first : Sheet Failure α}
    {next : α → Sheet Failure β}
    (hFirst : KeepsExtensions first)
    (hNext : ∀ a, KeepsExtensions (next a)) :
    KeepsExtensions (first >>= next) := by
  intro s
  have hReached := hFirst s
  unfold after at hReached ⊢
  simp only [bind, EStateM.bind]
  cases hOutcome : first s with
  | ok a t =>
      rw [hOutcome] at hReached
      exact (hNext a t).trans hReached
  | error e t =>
      rw [hOutcome] at hReached
      exact hReached

theorem keepsExtensions_traced (t : Traced Failure α) :
    KeepsExtensions (traced t) := by
  intro s
  unfold after traced
  cases t.outcome with
  | ok a => rfl
  | error e => rfl

theorem keepsExtensions_layer
    (id : String)
    (options : List (String × Value))
    {body : Build Failure Unit}
    (hBody : Build.IsWork body) :
    KeepsExtensions (layer id options body) := by
  intro s
  have hInside := hBody (layerBench id options s)
  unfold Build.after at hInside
  unfold after layer
  unfold layerBench at hInside
  dsimp only at hInside ⊢
  cases hOutcome : body _ with
  | ok a w =>
      rw [hOutcome] at hInside
      exact hInside.extensions
  | error e w =>
      rw [hOutcome] at hInside
      exact hInside.extensions

/- No program registers extensions. -/
theorem closed_keepsExtensions :
    Closed (fun _ action => KeepsExtensions action)
      fun _ _ action => Build.IsWork action where
  bodies := Build.closed_isWork
  pure _ := fun _ => rfl
  throw _ := fun _ => rfl
  bind := keepsExtensions_bind
  reads _ h := fun s => h s.sheet s
  traced := keepsExtensions_traced
  declareSource _ _ := fun _ => rfl
  setProperty _ _ := fun _ => rfl
  layer := keepsExtensions_layer

end Sheet

/- Including a text is like any other part of a run. -/
theorem Sheet.Closed.splice
    {P : (α : Type) → Sheet Failure α → Prop}
    {Q : (ε α : Type) → Build ε α → Prop}
    (hP : Closed P Q)
    (texts : Texts)
    (bound : Nat)
    (file : String) :
    P Unit (Program.splice texts bound file) := by
  cases bound with
  | zero => exact hP.check _
  | succ bound =>
      exact
        hP.bind (hP.included texts file)
          (hP.runWithin texts bound)

------------------------------------------------------------
-- Included files
------------------------------------------------------------

/- The file that a statement outside of layers includes. -/
def Statement.includedFile?
    (extensions : Bag Recipe)
    (statement : Statement) : Option String :=
  if statement.name = "include" ∧ statement.block = none then
    match
      (Scope.evaluateArguments ⟨extensions, none⟩
        statement.args).outcome
    with
    | .ok values =>
        (Arguments.text values 0 "include").toOption
    | .error _ => none
  else
    none

namespace Program

/- The program in the text of a file, if there is one. -/
def ofFile? (texts : Texts) (file : String) : Option Program :=
  match texts file with
  | .ok text => (read text).toOption
  | .error _ => none

theorem ofFile?_of_read
    {texts : Texts}
    {file text : String}
    {program : Program}
    (hText : texts file = .ok text)
    (hRead : read text = .ok program) :
    ofFile? texts file = some program := by
  unfold ofFile?
  rw [hText]
  dsimp only
  rw [hRead]
  rfl

/-
  A program in which statements that include a program are
  replaced by it, and again in these, so many times.
-/
def expanded
    (texts : Texts)
    (extensions : Bag Recipe) : Nat → Program → Program
  | 0, program => program
  | depth + 1, program =>
      program.flatMap fun statement =>
        match
          (statement.includedFile? extensions).bind
            (ofFile? texts)
        with
        | some included => expanded texts extensions depth included
        | none => [statement]

variable {texts : Texts}
variable {bound : Nat}
variable {statement : Statement}
variable {splice other : String → Sheet Failure Unit}
variable {s t : Session}

/- The arguments of a statement outside of layers. -/
theorem evaluated_arguments
    (args : List Argument)
    (s : Session) :
    Sheet.evaluated
        (fun scope => scope.evaluateArguments args) s =
      match
        (Scope.evaluateArguments ⟨s.sheet.extensions, none⟩
          args).outcome
      with
      | .ok values => .ok values (Sheet.evaluatedSession args s)
      | .error e =>
          .error (.compile e) (Sheet.evaluatedSession args s) := by
  unfold Sheet.evaluated Sheet.traced Traced.mapError
    Sheet.evaluatedSession Scope.topLevel
  dsimp only
  cases
    (Scope.evaluateArguments ⟨s.sheet.extensions, none⟩
      args).outcome with
  | ok values => rfl
  | error e => rfl

/- A statement that includes no file does nothing with files. -/
theorem runStatement_of_no_file
    (h : statement.includedFile? s.sheet.extensions = none) :
    runStatement splice statement s =
      runStatement other statement s := by
  unfold runStatement
  simp only [bind, EStateM.bind, evaluated_arguments]
  unfold Statement.includedFile? at h
  cases hOutcome :
      (Scope.evaluateArguments ⟨s.sheet.extensions, none⟩
        statement.args).outcome with
  | error e => rfl
  | ok values =>
      rw [hOutcome] at h
      dsimp only at h ⊢
      refine congrFun ?_ _
      split
      · rfl
      · rfl
      · next hName =>
          cases hBlock : statement.block with
          | some statements => rfl
          | none =>
              rw [if_pos ⟨hName, hBlock⟩] at h
              unfold runInclude
              cases hText :
                  Arguments.text values 0 "include" with
              | error e =>
                  funext u
                  rfl
              | ok file =>
                  rw [hText] at h
                  cases h
      · rfl

/- A statement that includes a file does nothing but that. -/
theorem runStatement_of_file
    {file : String}
    (h :
      statement.includedFile? s.sheet.extensions =
        some file) :
    ∃ u,
      Session.Same s u ∧
        ∀ splice,
          runStatement splice statement s = splice file u := by
  refine
    ⟨Sheet.evaluatedSession statement.args s, rfl, ?_⟩
  intro splice
  unfold Statement.includedFile? at h
  split at h
  · next hInclude =>
      rcases hInclude with ⟨hName, hBlock⟩
      split at h
      · next values hOutcome =>
          have hFile :
              Arguments.text values 0 "include" = .ok file := by
            cases hText :
                Arguments.text values 0 "include" with
            | error e =>
                rw [hText] at h
                cases h
            | ok found =>
                rw [hText] at h
                cases h
                rfl
          have hCheck :=
            Sheet.check_eq_ok
              (s := Sheet.evaluatedSession statement.args s).mpr
              ⟨hFile, rfl⟩
          unfold runStatement
          simp only [bind, EStateM.bind, evaluated_arguments,
            hOutcome, hName, hBlock]
          unfold runInclude
          simp only [bind, EStateM.bind, refuseBlock, pure,
            EStateM.pure, hCheck]
      · cases h
  · cases h

/- Including a file means running the program in it. -/
theorem splice_of_file
    (bound : Nat)
    {file : String}
    {program : Program}
    (h : ofFile? texts file = some program)
    (s : Session) :
    ∃ u,
      Session.Same s u ∧
        Program.splice texts (bound + 1) file s =
          runWithin texts bound program u := by
  unfold ofFile? at h
  split at h
  · next text hText =>
      have hRead : read text = .ok program := by
        cases hRead : read text with
        | error e =>
            rw [hRead] at h
            cases h
        | ok found =>
            rw [hRead] at h
            cases h
            rfl
      have hIncluded :=
        included_eq_ok (s := s).mpr ⟨text, hText, hRead, rfl⟩
      refine
        ⟨{ s with log := s.log ++ [Event.including file] }, rfl,
          ?_⟩
      unfold Program.splice
      simp only [bind, EStateM.bind, hIncluded]
  · cases h

/- No statement registers extensions. -/
theorem runStatement_extensions
    (h :
      runStatement (Program.splice texts bound) statement s =
        .ok () t) :
    t.sheet.extensions = s.sheet.extensions := by
  have hKeeps :=
    Sheet.closed_keepsExtensions.runStatement
      (Sheet.closed_keepsExtensions.splice texts bound)
      statement s
  unfold Sheet.after at hKeeps
  rw [h] at hKeeps
  exact hKeeps

/- A statement does the same whatever has been logged. -/
theorem runStatement_respects
    (statement : Statement) :
    Respects Session.Same
      (runStatement (Program.splice texts bound) statement) :=
  Sheet.closed_respects.runStatement
    (Sheet.closed_respects.splice texts bound) statement

------------------------------------------------------------
-- Includes that resolve
------------------------------------------------------------

/-
  Every include that the run of a program reaches resolves to
  a program, and no more of them are nested than a bound says.
-/
inductive Resolves
    (texts : Texts) : Nat → Program → Stylesheet → Prop
  | nil (bound : Nat) (sheet : Stylesheet) :
      Resolves texts bound [] sheet
  | other
    {bound : Nat}
    {statement : Statement}
    {rest : Program}
    {sheet : Stylesheet}
    (hFile : statement.includedFile? sheet.extensions = none)
    (hRest :
      ∀ s t,
        s.sheet = sheet →
          runStatement (Program.splice texts bound) statement
              s =
            .ok () t →
            Resolves texts bound rest t.sheet) :
      Resolves texts bound (statement :: rest) sheet
  | included
    {bound : Nat}
    {statement : Statement}
    {file : String}
    {program rest : Program}
    {sheet : Stylesheet}
    (hFile :
      statement.includedFile? sheet.extensions = some file)
    (hProgram : ofFile? texts file = some program)
    (hInside : Resolves texts bound program sheet)
    (hRest :
      ∀ s t,
        s.sheet = sheet →
          runStatement (Program.splice texts (bound + 1))
              statement s =
            .ok () t →
            Resolves texts (bound + 1) rest t.sheet) :
      Resolves texts (bound + 1) (statement :: rest) sheet

theorem runTopLevel_append
    (first second : Program) :
    runTopLevel splice (first ++ second) =
      runTopLevel splice first >>= fun _ =>
        runTopLevel splice second := by
  induction first with
  | nil => rfl
  | cons statement rest ih =>
      rw [List.cons_append, runTopLevel, ih, runTopLevel]
      exact (bind_assoc _ _ _).symm

section Expanding

variable {extensions : Bag Recipe}
variable {depth : Nat}
variable {rest : Program}

theorem expanded_nil :
    expanded texts extensions depth [] = [] := by
  cases depth with
  | zero => rfl
  | succ depth => rfl

/- A statement that includes no file stays. -/
theorem expanded_other
    (h : statement.includedFile? extensions = none) :
    expanded texts extensions depth (statement :: rest) =
      statement :: expanded texts extensions depth rest := by
  cases depth with
  | zero => rfl
  | succ depth =>
      unfold expanded
      rw [List.flatMap_cons, h]
      rfl

/- A statement that includes a program gives way to it. -/
theorem expanded_included
    {file : String}
    {program : Program}
    (hFile : statement.includedFile? extensions = some file)
    (hProgram : ofFile? texts file = some program) :
    expanded texts extensions (depth + 1) (statement :: rest) =
      expanded texts extensions depth program
        ++ expanded texts extensions (depth + 1) rest := by
  rw [expanded, expanded, List.flatMap_cons, hFile,
    Option.bind_some, hProgram]

end Expanding

/-
  A program whose includes resolve runs like the one in which
  they are replaced, whatever includes mean in the latter.
-/
theorem Resolves.alike
    {program : Program}
    {sheet : Stylesheet}
    (h : Resolves texts bound program sheet) :
    ∀ {depth : Nat} {s t : Session},
      bound ≤ depth →
        s.sheet = sheet →
          Session.Same s t →
            Alike Session.Same
              (runTopLevel (Program.splice texts bound) program s)
              (runTopLevel splice
                (expanded texts sheet.extensions depth program)
                t) := by
  induction h with
  | nil bound sheet =>
      intro depth s t _ _ hSame
      rw [expanded_nil]
      exact .ok () hSame
  | @other bound statement rest sheet hFile _ ih =>
      rintro depth s t hDepth rfl hSame
      rw [expanded_other hFile]
      have hNoFile :
          statement.includedFile? t.sheet.extensions = none := by
        rw [← hSame]
        exact hFile
      have hPlain :
          runStatement splice statement t =
            runStatement (Program.splice texts bound) statement
              t :=
        runStatement_of_no_file hNoFile
      refine Alike.bind ?_ ?_
      · rw [hPlain]
        exact runStatement_respects statement s t hSame
      · intro _ u v hRun hReached
        have hRest := ih s u rfl hRun hDepth rfl hReached
        rw [runStatement_extensions hRun] at hRest
        exact hRest
  | @included bound statement file program rest sheet hFile
      hProgram _ _ ihInside ihRest =>
      rintro depth s t hDepth rfl hSame
      obtain ⟨depth, rfl⟩ : ∃ below, depth = below + 1 :=
        ⟨depth - 1, by omega⟩
      rw [expanded_included hFile hProgram, runTopLevel_append]
      rcases runStatement_of_file hFile with ⟨u, hBegun, hRun⟩
      rcases splice_of_file bound hProgram u with
        ⟨v, hInside, hSplice⟩
      refine Alike.bind ?_ ?_
      · rw [hRun, hSplice, runWithin_eq]
        have hSheet : v.sheet = s.sheet := by
          rw [← hInside, ← hBegun]
        exact
          ihInside (by omega) hSheet (hSheet.trans hSame)
      · intro _ u v hRun hReached
        have hRest := ihRest s u rfl hRun hDepth rfl hReached
        rw [runStatement_extensions hRun] at hRest
        exact hRest

------------------------------------------------------------
-- Includes that are nested too deep
------------------------------------------------------------

/-
  The run of a program reaches an include that is nested
  deeper than a bound says, after everything before it has
  succeeded.
-/
inductive Overruns
    (texts : Texts) : Nat → Program → Stylesheet → Prop
  | here
    {statement : Statement}
    {file : String}
    {rest : Program}
    {sheet : Stylesheet}
    (hFile :
      statement.includedFile? sheet.extensions = some file) :
      Overruns texts 0 (statement :: rest) sheet
  | inside
    {bound : Nat}
    {statement : Statement}
    {file : String}
    {program rest : Program}
    {sheet : Stylesheet}
    (hFile :
      statement.includedFile? sheet.extensions = some file)
    (hProgram : ofFile? texts file = some program)
    (hInside : Overruns texts bound program sheet) :
      Overruns texts (bound + 1) (statement :: rest) sheet
  | later
    {bound : Nat}
    {statement : Statement}
    {rest : Program}
    {s t : Session}
    (hRun :
      runStatement (Program.splice texts bound) statement s =
        .ok () t)
    (hRest : Overruns texts bound rest t.sheet) :
      Overruns texts bound (statement :: rest) s.sheet

/- A program that reaches an include nested too deep fails. -/
theorem Overruns.fails
    {program : Program}
    {sheet : Stylesheet}
    (h : Overruns texts bound program sheet) :
    ∀ {s : Session},
      s.sheet = sheet →
        ∃ file t,
          runTopLevel (Program.splice texts bound) program s =
            .error
              (.compile
                (.argument
                  (.includeTooDeep file maxIncludes))) t := by
  induction h with
  | @here statement file rest sheet hFile =>
      rintro s rfl
      rcases runStatement_of_file hFile with ⟨u, _, hRun⟩
      have hRefused :
          Program.splice texts 0 file u =
            .error
              (.compile
                (.argument (.includeTooDeep file maxIncludes)))
              { u with log := u.log ++ ([] : List Event) } :=
        rfl
      refine
        ⟨file, { u with log := u.log ++ ([] : List Event) }, ?_⟩
      unfold runTopLevel
      simp only [bind, EStateM.bind, hRun, hRefused]
  | @inside bound statement file program rest sheet hFile
      hProgram _ ih =>
      rintro s rfl
      rcases runStatement_of_file hFile with ⟨u, hBegun, hRun⟩
      rcases splice_of_file bound hProgram u with
        ⟨v, hInside, hSplice⟩
      have hSheet : v.sheet = s.sheet := by
        rw [← hInside, ← hBegun]
      rcases ih hSheet with ⟨deep, t, hFails⟩
      refine ⟨deep, t, ?_⟩
      unfold runTopLevel
      simp only [bind, EStateM.bind, hRun, hSplice,
        runWithin_eq, hFails]
  | @later bound statement rest s t hStep _ ih =>
      rintro u hSame
      have hAlike :
          Alike Session.Same
            (runStatement (Program.splice texts bound) statement
              s)
            (runStatement (Program.splice texts bound) statement
              u) :=
        runStatement_respects statement s u hSame.symm
      rw [hStep] at hAlike
      cases hOther :
          runStatement (Program.splice texts bound) statement u with
      | error e v =>
          rw [hOther] at hAlike
          cases hAlike
      | ok _ v =>
          rw [hOther] at hAlike
          cases hAlike with
          | ok _ hReached =>
              rcases ih hReached.symm with ⟨file, w, hFails⟩
              refine ⟨file, w, ?_⟩
              unfold runTopLevel
              simp only [bind, EStateM.bind, hOther, hFails]

------------------------------------------------------------
-- Includes in a circle
------------------------------------------------------------

/- A statement of the program includes one of some files. -/
def IncludesAny
    (extensions : Bag Recipe)
    (files : String → Prop)
    (program : Program) : Prop :=
  ∃ statement ∈ program,
    ∃ file,
      statement.includedFile? extensions = some file ∧ files file

/- All statements of a run that succeeds have succeeded. -/
theorem exists_runStatement
    {program : Program}
    (hRun :
      runTopLevel (Program.splice texts bound) program s =
        .ok () t)
    (hStatement : statement ∈ program) :
    ∃ u v,
      u.sheet.extensions = s.sheet.extensions ∧
        runStatement (Program.splice texts bound) statement u =
          .ok () v := by
  induction program generalizing s with
  | nil => cases hStatement
  | cons first rest ih =>
      rcases Action.bind_eq_ok.mp hRun with
        ⟨_, u, hFirst, hRest⟩
      rcases List.mem_cons.mp hStatement with rfl | hLater
      · exact ⟨s, u, rfl, hFirst⟩
      · rcases ih hRest hLater with ⟨v, w, hSame, hStep⟩
        exact
          ⟨v, w, hSame.trans (runStatement_extensions hFirst),
            hStep⟩

/-
  If every program in a circle of files includes one of them
  again, no program that includes one of them succeeds.
-/
theorem not_ok_of_includesAny
    {files : String → Prop}
    {extensions : Bag Recipe}
    (hCircle :
      ∀ file program,
        files file →
          ofFile? texts file = some program →
            IncludesAny extensions files program) :
    ∀ {program : Program} {s t : Session},
      s.sheet.extensions = extensions →
        IncludesAny extensions files program →
          runWithin texts bound program s ≠ .ok () t := by
  induction bound with
  | zero =>
      rintro program s t rfl ⟨statement, hStatement, file,
        hFile, _⟩ hRun
      rw [runWithin_eq] at hRun
      rcases exists_runStatement hRun hStatement with
        ⟨u, v, hSame, hStep⟩
      rw [← hSame] at hFile
      rcases runStatement_of_file hFile with ⟨w, _, hSplice⟩
      rw [hSplice] at hStep
      cases hStep
  | succ bound ih =>
      rintro program s t rfl ⟨statement, hStatement, file,
        hFile, hIn⟩ hRun
      rw [runWithin_eq] at hRun
      rcases exists_runStatement hRun hStatement with
        ⟨u, v, hSame, hStep⟩
      rw [← hSame] at hFile
      rcases runStatement_of_file hFile with
        ⟨w, hBegun, hSplice⟩
      rw [hSplice] at hStep
      rcases Action.bind_eq_ok.mp hStep with
        ⟨found, x, hIncluded, hInside⟩
      rcases included_eq_ok.mp hIncluded with
        ⟨text, hText, hRead, rfl⟩
      have hProgram := ofFile?_of_read hText hRead
      have hAgain : w.sheet.extensions = s.sheet.extensions := by
        rw [← hBegun]
        exact hSame
      exact
        ih
          (s :=
            { w with log := w.log ++ [Event.including file] })
          hAgain (hCircle file found hIn hProgram) hInside

/-
  What includes mean, in every session: if they resolve and
  are nested at most as deep as is allowed, a program runs
  like the one in which they are replaced; if one is reached
  that is nested deeper, it fails; and so it does if it
  includes files that include each other in a circle.
-/
theorem run_expanded
    (texts : Texts)
    (program : Program)
    (s : Session) :
    (Resolves texts maxIncludes program s.sheet →
      ∀ depth,
        maxIncludes ≤ depth →
          Alike Session.Same (run texts program s)
            (run texts
              (expanded texts s.sheet.extensions depth program)
              s)) ∧
      (Overruns texts maxIncludes program s.sheet →
        ∃ file t,
          run texts program s =
            .error
              (.compile
                (.argument
                  (.includeTooDeep file maxIncludes))) t) ∧
      ∀ files : String → Prop,
        (∀ file included,
          files file →
            ofFile? texts file = some included →
              IncludesAny s.sheet.extensions files included) →
          IncludesAny s.sheet.extensions files program →
            ∀ t, run texts program s ≠ .ok () t := by
  unfold run
  rw [runWithin_eq]
  refine ⟨?_, ?_, ?_⟩
  · intro hResolves depth hDepth
    exact hResolves.alike hDepth rfl rfl
  · intro hOverruns
    exact hOverruns.fails rfl
  · intro files hCircle hProgram t
    rw [← runWithin_eq]
    exact not_ok_of_includesAny hCircle rfl hProgram

/- A statement with a text for its only argument. -/
def textStatement (name text : String) : Statement :=
  .mk name [.positional (.literal (.text text))] none

/- Files that include each other in a row, and in a circle. -/
def sharedTexts : Texts :=
  Texts.ofList
    [("colors", "sprite :colors"),
     ("roads", "include :colors\nlayer :roads"),
     ("circle", "name :circle\ninclude :circle")]

def circleProgram : Program :=
  [textStatement "name" "circle",
    textStatement "include" "circle"]

def roadsProgram : Program :=
  [textStatement "include" "colors",
    textStatement "layer" "roads"]

theorem ofFile?_roads :
    ofFile? sharedTexts "roads" = some roadsProgram := by
  cbv

theorem ofFile?_colors :
    ofFile? sharedTexts "colors" =
      some [textStatement "sprite" "colors"] := by
  cbv

theorem ofFile?_circle :
    ofFile? sharedTexts "circle" = some circleProgram := by
  cbv

theorem includedFile?_textStatement
    (extensions : Bag Recipe)
    (text : String) :
    (textStatement "include" text).includedFile? extensions =
      some text :=
  rfl

theorem overruns_circleProgram
    (bound : Nat)
    (sheet : Stylesheet) :
    Overruns sharedTexts bound circleProgram sheet := by
  induction bound generalizing sheet with
  | zero =>
      refine
        .later (s := ⟨sheet, #[]⟩)
          (t := ⟨sheet.setProperty "name" (.text "circle"), #[]⟩)
          rfl ?_
      exact .here (includedFile?_textStatement _ _)
  | succ bound ih =>
      refine
        .later (s := ⟨sheet, #[]⟩)
          (t := ⟨sheet.setProperty "name" (.text "circle"), #[]⟩)
          rfl ?_
      exact
        .inside (includedFile?_textStatement _ _)
          ofFile?_circle (ih _)

theorem resolves_roads (sheet : Stylesheet) :
    Resolves sharedTexts maxIncludes
      [textStatement "include" "roads"] sheet := by
  refine
    .included (includedFile?_textStatement _ _) ofFile?_roads
      ?_ fun _ _ _ _ => .nil _ _
  refine
    .included (includedFile?_textStatement _ _) ofFile?_colors
      (.other rfl fun _ _ _ _ => .nil _ _) fun _ _ _ _ => ?_
  exact .other rfl fun _ _ _ _ => .nil _ _

theorem run_expanded_shared :
    Alike Session.Same
        (run sharedTexts [textStatement "include" "roads"]
          Document.fresh)
        (run sharedTexts
          [textStatement "sprite" "colors",
            textStatement "layer" "roads"]
          Document.fresh) ∧
      (∃ file t,
        run sharedTexts circleProgram Document.fresh =
          .error
            (.compile
              (.argument
                (.includeTooDeep file maxIncludes))) t) ∧
        ∀ t,
          run sharedTexts circleProgram Document.fresh ≠
            .ok () t := by
  have hExpanded :
      expanded sharedTexts .empty maxIncludes
          [textStatement "include" "roads"] =
        [textStatement "sprite" "colors",
          textStatement "layer" "roads"] := by
    cbv
  have hRoads :=
    (run_expanded sharedTexts [textStatement "include" "roads"]
      Document.fresh).1 (resolves_roads _) maxIncludes
      (Nat.le_refl _)
  have hEmpty :
      Document.fresh.sheet.extensions = Bag.empty := rfl
  rw [hEmpty, hExpanded] at hRoads
  rcases run_expanded sharedTexts circleProgram Document.fresh
    with ⟨_, hDeep, hCircle⟩
  refine
    ⟨hRoads, hDeep (overruns_circleProgram _ _),
      hCircle (· = "circle") ?_ ?_⟩
  · rintro file included rfl hProgram
    rw [ofFile?_circle] at hProgram
    cases hProgram
    exact
      ⟨_, List.mem_cons_of_mem _ List.mem_cons_self, "circle",
        includedFile?_textStatement _ _, rfl⟩
  · exact
      ⟨_, List.mem_cons_of_mem _ List.mem_cons_self, "circle",
        includedFile?_textStatement _ _, rfl⟩

end Program

end MapStyle
