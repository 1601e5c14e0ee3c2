import MapStyle.Proofs.BodyRun

/-
  The run of a program and its derivation: the stylesheet gets
  the layers of the derived trunks, in their order, behind
  those that it has.

  Main statements:
    * `Stylesheet.insertAt_append`
    * `Program.runLayer_eq_ok`
    * `Program.runStatement_eq_ok`
    * `Program.yields_of_runWithin`
    * `Program.Derives.runWithin`
-/

namespace MapStyle

/-
  A layer that is put where the derived layers begin goes in
  front of all of them.
-/
theorem Stylesheet.insertAt_append
    (sheet : Stylesheet)
    (derived : List Layer)
    (layer : Layer) :
    (sheet.append derived).insertAt sheet.layers.length layer =
      sheet.append (layer :: derived) := by
  unfold Stylesheet.append Stylesheet.insertAt
  simp only [List.take_left, List.drop_left]

------------------------------------------------------------
-- Actions on a stylesheet
------------------------------------------------------------

namespace Sheet

variable {α : Type}
variable {s t : Session}

/-
  A computation at the top level succeeds with its outcome,
  and its events are logged.
-/
theorem traced_eq_ok
    {ε : Type}
    {computation : Traced ε α}
    {a : α} :
    traced computation s = .ok a t ↔
      computation.outcome = .ok a ∧
        t = { s with log := s.log ++ computation.events } := by
  unfold traced
  exact Action.settled_eq_ok

theorem check_eq_ok
    {outcome : Except CompileError α}
    {a : α} :
    check outcome s = .ok a t ↔ outcome = .ok a ∧ t = s := by
  unfold check
  rw [traced_eq_ok]
  simp only [Traced.ofExcept, Traced.mapError_eq_ok,
    Array.appendList_nil]

/- The session after arguments have been evaluated in it. -/
def evaluatedSession
    (args : List Argument)
    (s : Session) : Session :=
  { s with
    log :=
      s.log
        ++ ((Scope.topLevel s.sheet).evaluateArguments
          args).events }

/-
  Without extensions, arguments are evaluated to what their
  terms say.
-/
theorem evaluated_eq_ok
    {args : List Argument}
    {values : List Value}
    (hEmpty : s.sheet.extensions = .empty) :
    evaluated (fun scope => scope.evaluateArguments args) s =
        .ok values t ↔
      Program.Evaluates args values ∧
        t = evaluatedSession args s := by
  unfold evaluated
  rw [traced_eq_ok]
  unfold Program.Evaluates Traced.mapError evaluatedSession
    Scope.topLevel
  rw [Traced.mapError_eq_ok, hEmpty]

/- The workbench on which a new layer begins. -/
def layerBench
    (id : String)
    (options : List (String × Value))
    (s : Session) : Workbench :=
  let layer := Layer.create id options s.sheet.sources
  { layer := layer
    sheet := s.sheet
    log := s.log ++ layer.creationEvents }

/- The session after a new layer has been finished. -/
def layerSession
    (s : Session)
    (w : Workbench) : Session :=
  { sheet := w.sheet.insertAt s.sheet.layers.length w.layer
    log := w.log }

/- The definition of a layer succeeds if its body does. -/
theorem layer_eq_ok
    {ε : Type}
    {id : String}
    {options : List (String × Value)}
    {body : Build ε α}
    {a : α} :
    layer id options body s = .ok a t ↔
      ∃ w,
        body (layerBench id options s) = .ok a w ∧
          t = layerSession s w := by
  have hLayer :
      layer id options body s =
        Action.finish (layerSession s)
          (fun w => { sheet := w.sheet, log := w.log })
          (body (layerBench id options s)) := by
    unfold layer layerBench layerSession
    dsimp only
    cases body _ with
    | ok b w => rfl
    | error e w => rfl
  rw [hLayer, Action.finish_eq_ok]

end Sheet

------------------------------------------------------------
-- Statements
------------------------------------------------------------

namespace Program

variable {texts : Texts}

theorem refuseBlock_eq_ok
    {name : String}
    {block : Option (List Statement)}
    {s t : Session} :
    refuseBlock name block s = .ok () t ↔
      block = none ∧ t = s := by
  cases block with
  | none =>
      constructor
      · intro h
        cases h
        exact ⟨rfl, rfl⟩
      · rintro ⟨_, rfl⟩
        rfl
  | some statements =>
      constructor
      · intro h
        cases h
      · rintro ⟨hNone, _⟩
        cases hNone

theorem runSource_eq_ok
    {args : List Value}
    {block : Option (List Statement)}
    {s t : Session} :
    runSource args block s = .ok () t ↔
      block = none ∧
        ∃ name options,
          Arguments.nameAndOptions args "source" =
              .ok (name, options) ∧
            t =
              { s with
                sheet := s.sheet.declareSource name options } := by
  unfold runSource
  constructor
  · intro h
    rcases Action.bind_eq_ok.mp h with ⟨_, _, hBlock, hRun⟩
    rcases refuseBlock_eq_ok.mp hBlock with ⟨hNone, rfl⟩
    rcases Action.bind_eq_ok.mp hRun with
      ⟨⟨name, options⟩, _, hCheck, hDeclare⟩
    rcases Sheet.check_eq_ok.mp hCheck with ⟨hOptions, rfl⟩
    cases hDeclare
    exact ⟨hNone, name, options, hOptions, rfl⟩
  · rintro ⟨rfl, name, options, hOptions, rfl⟩
    have hCheck := Sheet.check_eq_ok (s := s).mpr ⟨hOptions, rfl⟩
    refine Action.bind_eq_ok.mpr ⟨(), s, rfl, ?_⟩
    exact Action.bind_eq_ok.mpr ⟨_, s, hCheck, rfl⟩

/- A layer is defined by the run of its block on a new bench. -/
theorem runLayer_eq_ok
    {args : List Value}
    {block : Option (List Statement)}
    {s t : Session} :
    runLayer args block s = .ok () t ↔
      ∃ id options w,
        Arguments.nameAndOptions args "layer" =
            .ok (id, options) ∧
          Body.runBlock Recipe.runner block
              (Sheet.layerBench id options s) =
            .ok () w ∧
            t = Sheet.layerSession s w := by
  unfold runLayer
  constructor
  · intro h
    rcases Action.bind_eq_ok.mp h with
      ⟨⟨id, options⟩, _, hCheck, hLayer⟩
    rcases Sheet.check_eq_ok.mp hCheck with ⟨hOptions, rfl⟩
    rcases Sheet.layer_eq_ok.mp hLayer with ⟨w, hBody, rfl⟩
    exact ⟨id, options, w, hOptions, hBody, rfl⟩
  · rintro ⟨id, options, w, hOptions, hBody, rfl⟩
    have hCheck := Sheet.check_eq_ok (s := s).mpr ⟨hOptions, rfl⟩
    have hLayer := Sheet.layer_eq_ok.mpr ⟨w, hBody, rfl⟩
    exact Action.bind_eq_ok.mpr ⟨_, s, hCheck, hLayer⟩

theorem runInclude_eq_ok
    {splice : String → Sheet Failure Unit}
    {args : List Value}
    {block : Option (List Statement)}
    {s t : Session} :
    runInclude splice args block s = .ok () t ↔
      block = none ∧
        ∃ file,
          Arguments.text args 0 "include" = .ok file ∧
            splice file s = .ok () t := by
  unfold runInclude
  constructor
  · intro h
    rcases Action.bind_eq_ok.mp h with ⟨_, _, hBlock, hRun⟩
    rcases refuseBlock_eq_ok.mp hBlock with ⟨hNone, rfl⟩
    rcases Action.bind_eq_ok.mp hRun with
      ⟨file, _, hCheck, hSplice⟩
    rcases Sheet.check_eq_ok.mp hCheck with ⟨hFile, rfl⟩
    exact ⟨hNone, file, hFile, hSplice⟩
  · rintro ⟨rfl, file, hFile, hSplice⟩
    have hCheck := Sheet.check_eq_ok (s := s).mpr ⟨hFile, rfl⟩
    refine Action.bind_eq_ok.mpr ⟨(), s, rfl, ?_⟩
    exact Action.bind_eq_ok.mpr ⟨file, s, hCheck, hSplice⟩

theorem runProperty_eq_ok
    {name : String}
    {args : List Value}
    {block : Option (List Statement)}
    {s t : Session} :
    runProperty name args block s = .ok () t ↔
      block = none ∧
        t =
          { s with
            sheet :=
              s.sheet.setProperty name
                (args.head?.getD .null) } := by
  unfold runProperty
  constructor
  · intro h
    rcases Action.bind_eq_ok.mp h with ⟨_, _, hBlock, hSet⟩
    rcases refuseBlock_eq_ok.mp hBlock with ⟨hNone, rfl⟩
    cases hSet
    exact ⟨hNone, rfl⟩
  · rintro ⟨rfl, rfl⟩
    exact Action.bind_eq_ok.mpr ⟨(), s, rfl, rfl⟩

/-
  What a statement outside of layers can do: declare a source,
  define a layer, include a text, or set a property.
-/
inductive Steps
    (splice : String → Sheet Failure Unit)
    (s : Session) :
    Session → String → List Value →
      Option (List Statement) → Prop
  | source
    {values : List Value}
    {name : String}
    {options : List (String × Value)}
    (hOptions :
      Arguments.nameAndOptions values "source" =
        .ok (name, options)) :
      Steps splice s
        { s with sheet := s.sheet.declareSource name options }
        "source" values none
  | layer
    {values : List Value}
    {block : Option (List Statement)}
    {id : String}
    {options : List (String × Value)}
    {w : Workbench}
    (hOptions :
      Arguments.nameAndOptions values "layer" =
        .ok (id, options))
    (hBody :
      Body.runBlock Recipe.runner block
          (Sheet.layerBench id options s) =
        .ok () w) :
      Steps splice s (Sheet.layerSession s w) "layer" values
        block
  | splice
    {values : List Value}
    {file : String}
    {t : Session}
    (hFile : Arguments.text values 0 "include" = .ok file)
    (hSplice : splice file s = .ok () t) :
      Steps splice s t "include" values none
  | property
    {name : String}
    {values : List Value}
    (hName : name ∉ ["source", "layer", "include"]) :
      Steps splice s
        { s with
          sheet :=
            s.sheet.setProperty name
              (values.head?.getD .null) }
        name values none

/-
  A statement of a program is what its name makes of it: one
  case for each kind.
-/
theorem runStatement_eq_ok
    (splice : String → Sheet Failure Unit)
    {name : String}
    {args : List Argument}
    {block : Option (List Statement)}
    {s t : Session}
    (hEmpty : s.sheet.extensions = .empty) :
    runStatement splice (.mk name args block) s = .ok () t ↔
      ∃ values,
        Evaluates args values ∧
          Steps splice (Sheet.evaluatedSession args s) t name
            values block := by
  unfold runStatement
  constructor
  · intro h
    rcases Action.bind_eq_ok.mp h with
      ⟨values, _, hEvaluated, hRun⟩
    rcases (Sheet.evaluated_eq_ok hEmpty).mp hEvaluated with
      ⟨hArgs, rfl⟩
    refine ⟨values, hArgs, ?_⟩
    simp only [Statement.name, Statement.block] at hRun
    split at hRun
    · rcases runSource_eq_ok.mp hRun with
        ⟨rfl, _, _, hOptions, rfl⟩
      exact .source hOptions
    · rcases runLayer_eq_ok.mp hRun with
        ⟨_, _, _, hOptions, hBody, rfl⟩
      exact .layer hOptions hBody
    · rcases runInclude_eq_ok.mp hRun with
        ⟨rfl, _, hFile, hSplice⟩
      exact .splice hFile hSplice
    · next hSource hLayer hInclude =>
        rcases runProperty_eq_ok.mp hRun with ⟨rfl, rfl⟩
        refine .property ?_
        simp only [List.mem_cons, List.not_mem_nil, or_false,
          not_or]
        exact ⟨hSource, hLayer, hInclude⟩
  · rintro ⟨values, hArgs, hStep⟩
    have hEvaluated :=
      (Sheet.evaluated_eq_ok hEmpty).mpr
        ⟨hArgs, (rfl : Sheet.evaluatedSession args s = _)⟩
    refine Action.bind_eq_ok.mpr ⟨values, _, hEvaluated, ?_⟩
    cases hStep with
    | source hOptions =>
        exact
          runSource_eq_ok.mpr ⟨rfl, _, _, hOptions, rfl⟩
    | layer hOptions hBody =>
        exact
          runLayer_eq_ok.mpr ⟨_, _, _, hOptions, hBody, rfl⟩
    | splice hFile hSplice =>
        exact runInclude_eq_ok.mpr ⟨rfl, _, hFile, hSplice⟩
    | property hName =>
        simp only [Statement.name, Statement.block]
        split
        · exact absurd (by decide) hName
        · exact absurd (by decide) hName
        · exact absurd (by decide) hName
        · exact runProperty_eq_ok.mpr ⟨rfl, rfl⟩

------------------------------------------------------------
-- From runs to derivations
------------------------------------------------------------

/-
  What a run leaves of a session without extensions: its
  layers are followed by those of the derived trunks.
-/
structure Yields
    (texts : Texts)
    (bound : Nat)
    (program : Program)
    (s t : Session)
    (trunks : List Trunk) : Prop where
  derives :
    Derives texts bound program s.sheet.sources
      t.sheet.sources trunks
  layers :
    t.sheet.layers =
      s.sheet.layers ++ Trunk.layersOfAll trunks
  extensions : t.sheet.extensions = .empty

/- Include a text, with further includes at most so deep. -/
def splice
    (texts : Texts)
    (bound : Nat)
    (file : String) : Sheet Failure Unit :=
  match bound with
  | 0 =>
      Sheet.check
        (Arguments.fail (.includeTooDeep file maxIncludes))
  | bound + 1 => do
      let program ← included texts file
      runWithin texts bound program

theorem runWithin_eq (bound : Nat) :
    runWithin texts bound =
      runTopLevel (splice texts bound) := by
  cases bound with
  | zero => rfl
  | succ bound => rfl

theorem included_eq_ok
    {file : String}
    {program : Program}
    {s t : Session} :
    included texts file s = .ok program t ↔
      ∃ text,
        texts file = .ok text ∧
          Program.read text = .ok program ∧
            t =
              { s with
                  log := s.log ++ [Event.including file] } := by
  unfold included
  cases texts file with
  | error cause =>
      constructor
      · intro h
        cases h
      · rintro ⟨_, hText, _⟩
        cases hText
  | ok text =>
      dsimp only
      cases hRead : Program.read text with
      | error e =>
          constructor
          · intro h
            cases h
          · rintro ⟨_, hText, hProgram, _⟩
            cases hText
            rw [hRead] at hProgram
            cases hProgram
      | ok found =>
          constructor
          · intro h
            cases h
            exact ⟨text, rfl, hRead, rfl⟩
          · rintro ⟨_, hText, hProgram, rfl⟩
            cases hText
            rw [hRead] at hProgram
            cases hProgram
            rfl

/- The layers of a finished layer go where it began. -/
theorem layerSession_layers
    {s : Session}
    {w : Workbench}
    {inner : List Branch}
    (hSheet :
      w.sheet = s.sheet.append (Branch.layersOfAll inner)) :
    (Sheet.layerSession s w).sheet =
      s.sheet.append (Trunk.layers ⟨w.layer, inner⟩) := by
  unfold Sheet.layerSession
  simp only [hSheet]
  exact Stylesheet.insertAt_append _ _ _

/-
  Every run of statements has a derivation, if those of
  included texts have one.
-/
theorem yields_of_runTopLevel
    {bound : Nat}
    (hSplice :
      ∀ file s t,
        splice texts bound file s = .ok () t →
          s.sheet.extensions = .empty →
            ∃ below text program trunks,
              bound = below + 1 ∧
                texts file = .ok text ∧
                  Program.read text = .ok program ∧
                    Yields texts below program s t trunks)
    (program : Program) :
    ∀ {s t : Session},
      runTopLevel (splice texts bound) program s = .ok () t →
        s.sheet.extensions = .empty →
          ∃ trunks, Yields texts bound program s t trunks := by
  induction program with
  | nil =>
      intro s t h hEmpty
      cases h
      exact ⟨[], .nil _ _, by simp [Trunk.layersOfAll], hEmpty⟩
  | cons statement rest ih =>
      intro s t h hEmpty
      rcases Action.bind_eq_ok.mp h with
        ⟨_, u, hStatement, hRest⟩
      rcases statement with ⟨name, args, block⟩
      rcases (runStatement_eq_ok _ hEmpty).mp hStatement with
        ⟨values, hArgs, hStep⟩
      cases hStep with
      | source hOptions =>
          rcases ih hRest hEmpty with ⟨trunks, hYields⟩
          exact
            ⟨trunks, .source hArgs hOptions hYields.derives,
              hYields.layers, hYields.extensions⟩
      | @layer _ _ id options w hOptions hBody =>
          rcases Body.derives_of_runBlock block [] hEmpty
              (Layer.create_sourced id options) hBody with
            ⟨_, inner, hInner, hBranches⟩
          have hSheet := layerSession_layers hInner
          have hStillEmpty :
              (Sheet.layerSession (Sheet.evaluatedSession args s)
                w).sheet.extensions = .empty := by
            rw [hSheet]
            exact hEmpty
          rcases ih hRest hStillEmpty with ⟨trunks, hYields⟩
          have hDerives := hYields.derives
          have hLayers := hYields.layers
          rw [hSheet] at hDerives hLayers
          refine
            ⟨⟨w.layer, inner⟩ :: trunks,
              .layer hArgs hOptions hBranches hDerives, ?_,
              hYields.extensions⟩
          rw [hLayers]
          exact List.append_assoc _ _ _
      | splice hFile hRun =>
          rcases hSplice _ _ _ hRun hEmpty with
            ⟨below, text, program, inner, rfl, hText, hRead,
              hIncluded⟩
          rcases ih hRest hIncluded.extensions with
            ⟨trunks, hYields⟩
          refine
            ⟨inner ++ trunks,
              .splice hArgs hFile hText hRead hIncluded.derives
                hYields.derives, ?_, hYields.extensions⟩
          rw [hYields.layers, hIncluded.layers]
          unfold Trunk.layersOfAll
          rw [List.flatMap_append]
          exact List.append_assoc _ _ _
      | property hName =>
          rcases ih hRest hEmpty with ⟨trunks, hYields⟩
          exact
            ⟨trunks, .property hArgs hName hYields.derives,
              hYields.layers, hYields.extensions⟩

/-
  Included texts have one by induction on how deeply they
  may still include each other.
-/
theorem yields_of_runWithin
    (bound : Nat) :
    ∀ (program : Program) {s t : Session},
      runWithin texts bound program s = .ok () t →
        s.sheet.extensions = .empty →
          ∃ trunks, Yields texts bound program s t trunks := by
  induction bound with
  | zero =>
      intro program s t h hEmpty
      rw [runWithin_eq] at h
      refine yields_of_runTopLevel ?_ program h hEmpty
      intro file s t hSplice _
      cases hSplice
  | succ bound ih =>
      intro program s t h hEmpty
      rw [runWithin_eq] at h
      refine yields_of_runTopLevel ?_ program h hEmpty
      intro file s t hSplice hEmpty
      rcases Action.bind_eq_ok.mp hSplice with
        ⟨found, _, hIncluded, hRun⟩
      rcases included_eq_ok.mp hIncluded with
        ⟨text, hText, hRead, rfl⟩
      rcases ih found hRun hEmpty with ⟨trunks, hYields⟩
      exact
        ⟨bound, text, found, trunks, rfl, hText, hRead,
          hYields.derives, hYields.layers, hYields.extensions⟩

------------------------------------------------------------
-- From derivations to runs
------------------------------------------------------------

/- Statements succeed if the first and the others do. -/
theorem runTopLevel_cons
    {splice : String → Sheet Failure Unit}
    {statement : Statement}
    {rest : Program}
    {s t u : Session}
    (hStatement : runStatement splice statement s = .ok () t)
    (hRest : runTopLevel splice rest t = .ok () u) :
    runTopLevel splice (statement :: rest) s = .ok () u := by
  unfold runTopLevel
  exact Action.bind_eq_ok.mpr ⟨(), t, hStatement, hRest⟩

/-
  Every derivation is that of a run, in each session with the
  sources that it begins with.
-/
theorem Derives.runWithin
    {bound : Nat}
    {program : Program}
    {sources last : Sources}
    {trunks : List Trunk}
    (h : Derives texts bound program sources last trunks) :
    ∀ {s : Session},
      s.sheet.extensions = .empty →
        s.sheet.sources = sources →
          ∃ t,
            Program.runWithin texts bound program s =
                .ok () t ∧
              t.sheet.sources = last ∧
                Yields texts bound program s t trunks := by
  induction h with
  | nil bound sources =>
      rintro s hEmpty rfl
      rw [runWithin_eq]
      exact
        ⟨s, rfl, rfl, .nil _ _, by simp [Trunk.layersOfAll],
          hEmpty⟩
  | @source bound args values name options rest _ _ _ hArgs
      hOptions _ ih =>
      rintro s hEmpty rfl
      have hStatement :=
        (runStatement_eq_ok (Program.splice texts bound)
          hEmpty).mpr
          ⟨values, hArgs, .source hOptions⟩
      rcases ih
          (s :=
            { Sheet.evaluatedSession args s with
              sheet := s.sheet.declareSource name options })
          hEmpty rfl with
        ⟨t, hRun, hLast, hYields⟩
      rw [runWithin_eq] at hRun ⊢
      exact
        ⟨t, runTopLevel_cons hStatement hRun, hLast,
          .source hArgs hOptions hYields.derives,
          hYields.layers, hYields.extensions⟩
  | @layer bound args values block id options rest _ _ _
      finished branches trunks hArgs hOptions hBody _ ih =>
      rintro s hEmpty rfl
      rcases hBody.runStatements Recipe.runner
          (w :=
            Sheet.layerBench id options
              (Sheet.evaluatedSession args s))
          (Layer.create_sourced id options) hEmpty rfl rfl with
        ⟨log, hInside⟩
      rw [← Body.runBlock_eq] at hInside
      have hStatement :=
        (runStatement_eq_ok (Program.splice texts bound)
          hEmpty).mpr
          ⟨values, hArgs, .layer hOptions hInside⟩
      have hSheet :
          (Sheet.layerSession (Sheet.evaluatedSession args s)
              ⟨finished,
                s.sheet.append (Branch.layersOfAll branches),
                log⟩).sheet =
            s.sheet.append
              (Trunk.layers ⟨finished, branches⟩) :=
        layerSession_layers rfl
      rcases ih (s := Sheet.layerSession _ _)
          (by rw [hSheet]; exact hEmpty)
          (by rw [hSheet]; rfl) with
        ⟨t, hRun, hLast, hYields⟩
      have hDerives := hYields.derives
      have hLayers := hYields.layers
      rw [hSheet] at hDerives hLayers
      rw [runWithin_eq] at hRun ⊢
      refine
        ⟨t, runTopLevel_cons hStatement hRun, hLast,
          .layer hArgs hOptions hBody hDerives, ?_,
          hYields.extensions⟩
      rw [hLayers]
      exact List.append_assoc _ _ _
  | @splice bound args values file text program rest _ _ _
      inner trunks hArgs hFile hText hRead _ _ ihIncluded
      ihRest =>
      rintro s hEmpty rfl
      rcases ihIncluded
          (s :=
            { Sheet.evaluatedSession args s with
              log :=
                (Sheet.evaluatedSession args s).log
                  ++ [Event.including file] })
          hEmpty rfl with
        ⟨t, hInside, hMiddle, hIncluded⟩
      have hStatement :=
        (runStatement_eq_ok
          (Program.splice texts (bound + 1)) hEmpty).mpr
          ⟨values, hArgs, .splice hFile
            (Action.bind_eq_ok.mpr
              ⟨program, _,
                included_eq_ok.mpr
                  ⟨text, hText, hRead, rfl⟩, hInside⟩)⟩
      rcases ihRest hIncluded.extensions hMiddle with
        ⟨u, hRun, hLast, hYields⟩
      rw [runWithin_eq] at hRun ⊢
      refine
        ⟨u, runTopLevel_cons hStatement hRun, hLast,
          .splice hArgs hFile hText hRead hIncluded.derives
            hYields.derives, ?_, hYields.extensions⟩
      rw [hYields.layers, hIncluded.layers]
      unfold Trunk.layersOfAll
      rw [List.flatMap_append]
      exact List.append_assoc _ _ _
  | @property bound name args values rest _ _ _ hArgs hName _
      ih =>
      rintro s hEmpty rfl
      have hStatement :=
        (runStatement_eq_ok (Program.splice texts bound)
          hEmpty).mpr
          ⟨values, hArgs, .property hName⟩
      rcases ih
          (s :=
            { Sheet.evaluatedSession args s with
              sheet :=
                s.sheet.setProperty name
                  (values.head?.getD .null) })
          hEmpty rfl with
        ⟨t, hRun, hLast, hYields⟩
      rw [runWithin_eq] at hRun ⊢
      exact
        ⟨t, runTopLevel_cons hStatement hRun, hLast,
          .property hArgs hName hYields.derives,
          hYields.layers, hYields.extensions⟩

end Program

end MapStyle
