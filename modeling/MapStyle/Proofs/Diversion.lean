import MapStyle.Proofs.Frame
import MapStyle.Proofs.LayerOrder

/-
  Where the assignments in a cascade block go. Each cascade
  block clears the active condition when it ends, so that the
  assignments behind a block inside of another one are not
  recorded any more, but written into the properties.

  Key definitions include:
    * `Write`
    * `Write.effects`
    * `Write.intended`
    * `Write.Ordered`

  Main statements:
    * `Write.outcome_runAll`
    * `Write.effects_eq_intended`
    * `Write.exists_none_of_not_ordered`
    * `Build.cascade_diverts_iff`
-/

namespace MapStyle

------------------------------------------------------------
-- Blocks of assignments
------------------------------------------------------------

/-
  An assignment, whose value may depend on the properties of
  the layer, or a cascade block.
-/
inductive Write
  | assign (name : String) (value : Bag Value → Value)
  | cascade (args : List Value) (body : List Write)

/- An assignment under the condition that is active for it. -/
structure Effect where
  condition : Option Expression
  name : String
  value : Bag Value → Value

namespace Write

/- Whether it is an assignment. -/
def isAssign : Write → Bool
  | .assign _ _ => true
  | .cascade _ _ => false

/- Run assignments and cascade blocks in order. -/
def runAll : List Write → Build CompileError Unit
  | [] => pure ()
  | .assign name value :: rest => do
      let w ← get
      Build.set name (value w.layer.properties)
      runAll rest
  | .cascade args body :: rest => do
      Build.cascade args (runAll body)
      runAll rest

/-
  The assignments in order, each under the condition that is
  active when it is reached.
-/
def effects : Option Expression → List Write → List Effect
  | _, [] => []
  | active, .assign name value :: rest =>
      ⟨active, name, value⟩ :: effects active rest
  | _, .cascade args body :: rest =>
      effects (Expression.condition? args) body
        ++ effects none rest

/-
  The assignments in order, each under the condition of the
  innermost block around it.
-/
def intended : Option Expression → List Write → List Effect
  | _, [] => []
  | active, .assign name value :: rest =>
      ⟨active, name, value⟩ :: intended active rest
  | active, .cascade args body :: rest =>
      intended (Expression.condition? args) body
        ++ intended active rest

/- Every block at any depth has at least one argument. -/
def Conditional : List Write → Prop
  | [] => True
  | .assign _ _ :: rest => Conditional rest
  | .cascade args body :: rest =>
      args ≠ [] ∧ Conditional body ∧ Conditional rest

/-
  At no depth does an assignment follow a block inside of the
  same block.
-/
def Ordered : List Write → Prop
  | [] => True
  | .assign _ _ :: rest => Ordered rest
  | .cascade _ body :: rest =>
      Ordered body ∧
        (∀ write ∈ rest, write.isAssign = false) ∧
          Ordered rest

------------------------------------------------------------
-- Order and effects
------------------------------------------------------------

/- Without assignments the active condition does not matter. -/
theorem effects_of_not_assign
    (first second : Option Expression) :
    (rest : List Write) →
      (∀ write ∈ rest, write.isAssign = false) →
        effects first rest = effects second rest
  | [], _ => by
      rw [effects, effects]
  | .assign name value :: rest, hNone => by
      have hFirst := hNone (.assign name value)
        List.mem_cons_self
      cases hFirst
  | .cascade args body :: rest, _ => by
      rw [effects, effects]

/- In an ordered block every condition is as intended. -/
theorem effects_eq_intended :
    (body : List Write) →
      (active : Option Expression) →
        Ordered body → effects active body = intended active body
  | [], active, _ => by
      rw [effects, intended]
  | .assign name value :: rest, active, hOrdered => by
      rw [Ordered] at hOrdered
      rw [effects, intended,
        effects_eq_intended rest active hOrdered]
  | .cascade args body :: rest, active, hOrdered => by
      rw [Ordered] at hOrdered
      rcases hOrdered with ⟨hBody, hNone, hRest⟩
      rw [effects, intended, effects_eq_intended body _ hBody,
        effects_of_not_assign none active rest hNone,
        effects_eq_intended rest active hRest]

theorem isSome_condition?
    {args : List Value}
    (hArgs : args ≠ []) :
    (Expression.condition? args).isSome := by
  rcases args with _ | ⟨first, _ | ⟨second, more⟩⟩
  · exact absurd rfl hArgs
  · rfl
  · rfl

/- Blocks with arguments intend a condition everywhere. -/
theorem isSome_of_mem_intended :
    (body : List Write) →
      {active : Option Expression} →
        active.isSome → Conditional body →
          ∀ effect ∈ intended active body,
            effect.condition.isSome
  | [], active, _, _ => by
      rw [intended]
      intro effect hEffect
      cases hEffect
  | .assign name value :: rest, active, hActive, hBody => by
      rw [Conditional] at hBody
      rw [intended]
      intro effect hEffect
      rcases List.mem_cons.mp hEffect with rfl | hRest
      · exact hActive
      · exact isSome_of_mem_intended rest hActive hBody effect
          hRest
  | .cascade args body :: rest, active, hActive, hBody => by
      rw [Conditional] at hBody
      rcases hBody with ⟨hArgs, hInner, hRest⟩
      rw [intended]
      intro effect hEffect
      rcases List.mem_append.mp hEffect with hIn | hOut
      · exact isSome_of_mem_intended body
          (isSome_condition? hArgs) hInner effect hIn
      · exact isSome_of_mem_intended rest hActive hRest effect
          hOut

/- While no condition is active, assignments are plain ones. -/
theorem exists_none_of_assign :
    (rest : List Write) →
      (∃ write ∈ rest, write.isAssign = true) →
        ∃ effect ∈ effects none rest, effect.condition = none
  | [], hSome => by
      rcases hSome with ⟨write, hMem, _⟩
      cases hMem
  | .assign name value :: rest, _ => by
      rw [effects]
      exact ⟨_, List.mem_cons_self, rfl⟩
  | .cascade args body :: rest, hSome => by
      rcases hSome with ⟨write, hMem, hAssign⟩
      rcases List.mem_cons.mp hMem with rfl | hRest
      · cases hAssign
      · rcases exists_none_of_assign rest
            ⟨write, hRest, hAssign⟩ with
          ⟨effect, hEffect, hNone⟩
        rw [effects]
        exact
          ⟨effect, List.mem_append_right _ hEffect, hNone⟩

theorem exists_none_of_not_ordered :
    (body : List Write) →
      (active : Option Expression) →
        ¬ Ordered body →
          ∃ effect ∈ effects active body,
            effect.condition = none
  | [], active, hNot => by
      rw [Ordered] at hNot
      exact absurd trivial hNot
  | .assign name value :: rest, active, hNot => by
      rw [Ordered] at hNot
      rcases exists_none_of_not_ordered rest active hNot with
        ⟨effect, hEffect, hNone⟩
      rw [effects]
      exact ⟨effect, List.mem_cons_of_mem _ hEffect, hNone⟩
  | .cascade args body :: rest, active, hNot => by
      rw [Ordered] at hNot
      rw [effects]
      by_cases hBody : Ordered body
      · by_cases hAssign :
            ∃ write ∈ rest, write.isAssign = true
        · rcases exists_none_of_assign rest hAssign with
            ⟨effect, hEffect, hNone⟩
          exact
            ⟨effect, List.mem_append_right _ hEffect, hNone⟩
        · have hRest : ¬ Ordered rest := by
            intro hRest
            apply hNot
            refine ⟨hBody, ?_, hRest⟩
            intro write hWrite
            rw [Bool.eq_false_iff]
            intro hTrue
            exact hAssign ⟨write, hWrite, hTrue⟩
          rcases exists_none_of_not_ordered rest none hRest
            with ⟨effect, hEffect, hNone⟩
          exact
            ⟨effect, List.mem_append_right _ hEffect, hNone⟩
      · rcases exists_none_of_not_ordered body
            (Expression.condition? args) hBody with
          ⟨effect, hEffect, hNone⟩
        exact ⟨effect, List.mem_append_left _ hEffect, hNone⟩

end Write

------------------------------------------------------------
-- Effects on a layer
------------------------------------------------------------

namespace Layer

/- The layer while no condition is active. -/
def quiet (layer : Layer) : Layer :=
  { layer with active := none }

/- Perform assignments under their conditions. -/
def performAll :
    Layer → List Effect → Except CompileError Layer
  | layer, [] => .ok layer
  | layer, effect :: rest =>
      match
        ({ layer with active := effect.condition } : Layer).set
          effect.name (effect.value layer.properties)
      with
      | .ok next => performAll next.quiet rest
      | .error e => .error e

/-
  Record assignments whose values depend on given properties.
-/
def recordAll
    (properties : Bag Value) :
    List Cascade → List Effect → List Cascade
  | cascades, [] => cascades
  | cascades, effect :: rest =>
      match effect.condition with
      | some condition =>
          recordAll properties
            (record cascades condition
              (Spelling.underscored effect.name)
              (effect.value properties))
            rest
      | none => recordAll properties cascades rest

theorem performAll_append
    (first second : List Effect) :
    ∀ layer : Layer,
      performAll layer (first ++ second) =
        match performAll layer first with
        | .ok next => performAll next second
        | .error e => .error e := by
  induction first with
  | nil =>
      intro layer
      rfl
  | cons effect rest ih =>
      intro layer
      rw [List.cons_append, performAll, performAll]
      cases
        ({ layer with active := effect.condition } : Layer).set
          effect.name (effect.value layer.properties) with
      | ok next => exact ih next.quiet
      | error e => rfl

/-
  Assignments that all have a condition leave nothing but
  records.
-/
theorem performAll_of_conditions
    (effects : List Effect) :
    ∀ layer : Layer,
      layer.active = none →
        (∀ effect ∈ effects, effect.condition.isSome) →
          performAll layer effects =
            .ok
              { layer with
                cascades :=
                  recordAll layer.properties layer.cascades
                    effects } := by
  induction effects with
  | nil =>
      intro layer _ _
      rfl
  | cons effect rest ih =>
      intro layer hActive hAll
      have hFirst := hAll effect List.mem_cons_self
      have hRest :
          ∀ other ∈ rest, other.condition.isSome :=
        fun other hOther =>
          hAll other (List.mem_cons_of_mem _ hOther)
      rcases Option.isSome_iff_exists.mp hFirst with
        ⟨condition, hCondition⟩
      rw [performAll, recordAll, hCondition,
        set_of_active _ _ rfl]
      dsimp only
      rw [ih _ rfl hRest]
      unfold quiet
      rw [← hActive]

/- An assignment never removes a property. -/
theorem mem_keys_of_set
    {layer next : Layer}
    {name : String}
    {value : Value}
    (h : layer.set name value = .ok next)
    {key : String}
    (hKey : key ∈ layer.properties.keys) :
    key ∈ next.properties.keys := by
  rcases set_cases h with
    ⟨condition, _, rfl⟩ | ⟨settled, _, _, rfl⟩
  · exact hKey
  · exact (Bag.mem_keys_insert _ _ _ _).mpr (Or.inl hKey)

/- A plain assignment is found among the properties. -/
theorem mem_keys_of_set_inactive
    {layer next : Layer}
    {name : String}
    {value : Value}
    (h : layer.set name value = .ok next)
    (hActive : layer.active = none) :
    Spelling.underscored name ∈ next.properties.keys := by
  rcases set_cases h with
    ⟨condition, hSome, _⟩ | ⟨settled, _, _, rfl⟩
  · rw [hActive] at hSome
    cases hSome
  · exact (Bag.mem_keys_insert _ _ _ _).mpr (Or.inr rfl)

theorem active_of_set
    {layer next : Layer}
    {name : String}
    {value : Value}
    (h : layer.set name value = .ok next) :
    next.active = layer.active := by
  rcases set_cases h with
    ⟨condition, _, rfl⟩ | ⟨settled, _, _, rfl⟩
  · rfl
  · rfl

theorem performAll_cons_eq_ok
    {layer next : Layer}
    {effect : Effect}
    {rest : List Effect}
    (h : performAll layer (effect :: rest) = .ok next) :
    ∃ middle,
      ({ layer with active := effect.condition } : Layer).set
          effect.name (effect.value layer.properties) =
        .ok middle ∧
        performAll middle.quiet rest = .ok next := by
  rw [performAll] at h
  cases hSet :
      ({ layer with active := effect.condition } : Layer).set
        effect.name (effect.value layer.properties) with
  | ok middle =>
      rw [hSet] at h
      exact ⟨middle, rfl, h⟩
  | error e =>
      rw [hSet] at h
      cases h

theorem mem_keys_of_performAll
    (effects : List Effect) :
    ∀ {layer next : Layer},
      performAll layer effects = .ok next →
        ∀ key ∈ layer.properties.keys,
          key ∈ next.properties.keys := by
  induction effects with
  | nil =>
      intro layer next h key hKey
      cases h
      exact hKey
  | cons effect rest ih =>
      intro layer next h key hKey
      rcases performAll_cons_eq_ok h with
        ⟨middle, hSet, hRest⟩
      exact ih hRest key (mem_keys_of_set hSet hKey)

/-
  Among several assignments, one without a condition is found
  among the properties in the end.
-/
theorem mem_keys_of_performAll_none
    (effects : List Effect) :
    ∀ {layer next : Layer},
      performAll layer effects = .ok next →
        ∀ effect ∈ effects,
          effect.condition = none →
            Spelling.underscored effect.name ∈
              next.properties.keys := by
  induction effects with
  | nil =>
      intro layer next _ effect hEffect
      cases hEffect
  | cons first rest ih =>
      intro layer next h effect hEffect hNone
      rcases performAll_cons_eq_ok h with
        ⟨middle, hSet, hRest⟩
      rcases List.mem_cons.mp hEffect with rfl | hLater
      · have hKey := mem_keys_of_set_inactive hSet (by
          rw [hNone])
        exact mem_keys_of_performAll rest hRest _ hKey
      · exact ih hRest effect hLater hNone

end Layer

------------------------------------------------------------
-- Runs
------------------------------------------------------------

namespace Write

/- The layer that an action leaves, or its failure. -/
def outcome
    (action : Build CompileError Unit)
    (w : Workbench) : Except CompileError Layer :=
  match action w with
  | .ok _ v => .ok v.layer.quiet
  | .error e _ => .error e

/- The run of an assignment before others. -/
theorem runAll_assign
    (name : String)
    (value : Bag Value → Value)
    (rest : List Write)
    (w : Workbench) :
    runAll (.assign name value :: rest) w =
      match w.layer.set name (value w.layer.properties) with
      | .ok next =>
          runAll rest
            { w with
              layer := next
              log := w.log ++ Build.setEvents w.layer name }
      | .error e =>
          .error e
            { w with
              log := w.log ++ Build.setEvents w.layer name } := by
  rw [runAll]
  change
    EStateM.bind
      (Build.set name (value w.layer.properties))
      (fun _ => runAll rest) w = _
  unfold EStateM.bind Build.set
  cases w.layer.set name (value w.layer.properties) with
  | ok next => rfl
  | error e => rfl

/- The run of a block before others. -/
theorem runAll_cascade
    (args : List Value)
    (body rest : List Write)
    (w : Workbench) :
    runAll (.cascade args body :: rest) w =
      match
        runAll body
          (Build.withActive (Expression.condition? args) w)
      with
      | .ok _ v => runAll rest (Build.withActive none v)
      | .error e v => .error e (Build.withActive none v) := by
  rw [runAll]
  simp only [bind, EStateM.bind, Build.cascade,
    Build.withActive]
  cases runAll body
      { w with
        layer :=
          { w.layer with
            active := Expression.condition? args } } with
  | ok _ v => rfl
  | error e v => rfl

/-
  A run does to the layer what the effects of the block do,
  one after the other.
-/
theorem outcome_runAll :
    (body : List Write) →
      (w : Workbench) →
        outcome (runAll body) w =
          w.layer.quiet.performAll
            (effects w.layer.active body)
  | [], w => by
      rw [effects, runAll]
      rfl
  | .assign name value :: rest, w => by
      have hRun := runAll_assign name value rest w
      have hSame :
          ({ w.layer.quiet with active := w.layer.active } :
            Layer) = w.layer := rfl
      rw [effects, Layer.performAll]
      unfold outcome
      rw [hRun, hSame]
      change
        _ =
          match w.layer.set name (value w.layer.properties) with
          | .ok next =>
              next.quiet.performAll
                (effects w.layer.active rest)
          | .error e => .error e
      cases hSet :
          w.layer.set name (value w.layer.properties) with
      | error e => rfl
      | ok next =>
          have hRest :=
            outcome_runAll rest
              { w with
                layer := next
                log := w.log ++ Build.setEvents w.layer name }
          dsimp only at hRest
          rw [Layer.active_of_set hSet] at hRest
          exact hRest
  | .cascade args body :: rest, w => by
      have hRun := runAll_cascade args body rest w
      have hBody :
          outcome (runAll body)
              (Build.withActive (Expression.condition? args)
                w) =
            w.layer.quiet.performAll
              (effects (Expression.condition? args) body) :=
        outcome_runAll body _
      unfold outcome at hBody ⊢
      rw [effects, Layer.performAll_append, ← hBody, hRun]
      cases runAll body
          (Build.withActive (Expression.condition? args) w)
        with
      | error e v => rfl
      | ok _ v =>
          exact outcome_runAll rest (Build.withActive none v)

/-
  An ordered block can be run on every workbench, and leaves
  nothing but records.
-/
theorem exists_runAll_of_ordered
    {body : List Write}
    (hBody : Conditional body)
    (hOrdered : Ordered body)
    {w : Workbench}
    (hActive : w.layer.active.isSome) :
    ∃ v,
      runAll body w = .ok () v ∧
        v.layer.quiet =
          { w.layer.quiet with
            cascades :=
              Layer.recordAll w.layer.properties
                w.layer.cascades
                (intended w.layer.active body) } := by
  have hOutcome := outcome_runAll body w
  rw [effects_eq_intended body _ hOrdered,
    Layer.performAll_of_conditions _ _ rfl
      (isSome_of_mem_intended body hActive hBody)] at hOutcome
  unfold outcome at hOutcome
  cases hRun : runAll body w with
  | ok _ v =>
      rw [hRun] at hOutcome
      exact ⟨v, rfl, Except.ok.inj hOutcome⟩
  | error e v =>
      rw [hRun] at hOutcome
      cases hOutcome

/-
  Any other block leaves a property behind that was assigned
  in it, if it can be run at all.
-/
theorem exists_key_of_not_ordered
    {body : List Write}
    (hNot : ¬ Ordered body)
    {w v : Workbench}
    (hRun : runAll body w = .ok () v) :
    ∃ key, key ∈ v.layer.properties.keys := by
  rcases exists_none_of_not_ordered body w.layer.active hNot
    with ⟨effect, hEffect, hNone⟩
  have hOutcome := outcome_runAll body w
  unfold outcome at hOutcome
  rw [hRun] at hOutcome
  exact
    ⟨_,
      Layer.mem_keys_of_performAll_none _ hOutcome.symm effect
        hEffect hNone⟩

end Write

------------------------------------------------------------
-- Cascade blocks
------------------------------------------------------------

namespace Build

/-
  Whether a block succeeds or fails, no condition is active
  behind it.
-/
theorem active_after_cascade
    {ε α : Type}
    (args : List Value)
    (body : Build ε α)
    (w : Workbench) :
    (after (cascade args body) w).layer.active = none := by
  unfold after cascade
  dsimp only
  cases body _ <;> rfl

/-
  A block with a condition leaves the properties of every
  layer as they are exactly if no assignment in it follows a
  block inside of the same block. Then all assignments are
  recorded under the condition of the innermost block. The
  condition that was active before is active again exactly if
  there was none.
-/
theorem cascade_diverts_iff
    {args : List Value}
    {body : List Write}
    (hArgs : args ≠ [])
    (hBody : Write.Conditional body) :
    ((∀ w, ∃ v,
        cascade args (Write.runAll body) w = .ok () v ∧
          v.layer.properties = w.layer.properties) ↔
      Write.Ordered body) ∧
      (Write.Ordered body →
        ∀ w, ∃ v,
          cascade args (Write.runAll body) w = .ok () v ∧
            v.layer =
              { w.layer with
                cascades :=
                  Layer.recordAll w.layer.properties
                    w.layer.cascades
                    (Write.intended
                      (Expression.condition? args) body)
                active := none }) ∧
        ∀ {ε α : Type} (given : List Value)
          (action : Build ε α) (w : Workbench),
          (after (cascade given action) w).layer.active =
              w.layer.active ↔
            w.layer.active = none := by
  have hRecords :
      Write.Ordered body →
        ∀ w, ∃ v,
          cascade args (Write.runAll body) w = .ok () v ∧
            v.layer =
              { w.layer with
                cascades :=
                  Layer.recordAll w.layer.properties
                    w.layer.cascades
                    (Write.intended
                      (Expression.condition? args) body)
                active := none } := by
    intro hOrdered w
    rcases Write.exists_runAll_of_ordered hBody hOrdered
        (w := withActive (Expression.condition? args) w)
        (Write.isSome_condition? hArgs) with
      ⟨v, hRun, hLayer⟩
    exact
      ⟨withActive none v, cascade_eq_ok.mpr ⟨v, hRun, rfl⟩,
        hLayer⟩
  refine ⟨⟨?_, ?_⟩, hRecords, ?_⟩
  · intro hKept
    by_cases hOrdered : Write.Ordered body
    · exact hOrdered
    -- A layer without properties would get some.
    · let bare : Workbench :=
        { layer := Layer.ofProperties .empty
          sheet := .empty
          log := #[] }
      rcases hKept bare with ⟨u, hRun, hSame⟩
      rcases cascade_eq_ok.mp hRun with ⟨v, hInside, rfl⟩
      rcases Write.exists_key_of_not_ordered hOrdered hInside
        with ⟨key, hKey⟩
      change v.layer.properties = Bag.empty at hSame
      rw [hSame] at hKey
      cases hKey
  · intro hOrdered w
    rcases hRecords hOrdered w with ⟨v, hRun, hLayer⟩
    refine ⟨v, hRun, ?_⟩
    rw [hLayer]
  · intro ε α given action w
    rw [active_after_cascade]
    exact eq_comm

/- An assignment in front of a block inside, or behind it. -/
def leading : List Write :=
  [.assign "line_width" fun _ => .int 1,
    .cascade [.expr (.get "k")]
      [.assign "line_color" fun _ => .text "red"]]

def trailing : List Write :=
  [.cascade [.expr (.get "k")]
      [.assign "line_color" fun _ => .text "red"],
    .assign "line_width" fun _ => .int 1]

theorem cascade_diverts_iff_leading_trailing :
    (∀ w, ∃ v,
      cascade [.bool true] (Write.runAll leading) w =
          .ok () v ∧
        v.layer.properties = w.layer.properties) ∧
      ¬ ∀ w, ∃ v,
        cascade [.bool true] (Write.runAll trailing) w =
            .ok () v ∧
          v.layer.properties = w.layer.properties := by
  have hLeading : Write.Conditional leading := by
    simp [leading, Write.Conditional]
  have hTrailing : Write.Conditional trailing := by
    simp [trailing, Write.Conditional]
  have hArgs : [Value.bool true] ≠ [] := List.cons_ne_nil _ _
  constructor
  · apply (cascade_diverts_iff hArgs hLeading).1.mpr
    simp [leading, Write.Ordered]
  · intro hKept
    have hOrdered :=
      (cascade_diverts_iff hArgs hTrailing).1.mp hKept
    simp [trailing, Write.Ordered, Write.isAssign] at hOrdered

end Build

namespace Sheet

/- An assignment behind a block inside of a cascade block. -/
def trailingAssignment : String :=
  "layer :a \x7b
    cascade k == 1 \x7b
      cascade k == 2 \x7b line_width 2 \x7d
      line_width 1
    \x7d
  \x7d"

/- The assignment ends up among the properties. -/
theorem trailingAssignment_not_diverted :
    (layersOf? trailingAssignment).map
        (List.map fun layer => layer.properties.keys) =
      some [["id", "line_width"]] := by
  decide +kernel

end Sheet

end MapStyle
