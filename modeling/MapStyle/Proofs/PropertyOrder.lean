import MapStyle.Proofs.WrittenParts

/-
  The order and the values of the properties that are drawn,
  which are those of layout and paint. Options write them, and
  so do assignments and property statements, in either
  spelling; a layer has each of them once.

  Key definitions include:
    * `Entries.lastWritten`
    * `Assignment`
    * `Assignment.performAll`
    * `Assignment.writes`
    * `Layer.drawnMembers`

  Main statements:
    * `Bag.entries_ofList`
    * `Layer.create_startsFrom`
    * `Assignment.perform_eq_ok`
    * `Assignment.lastWritten_of_performAll`
-/

namespace MapStyle

------------------------------------------------------------
-- Last writes
------------------------------------------------------------

namespace Entries

variable {α : Type}

/-
  What is left of writes: every name once, in the order of the
  first writes, with the value of its last one.
-/
def lastWritten
    (writes : List (String × α)) : List (String × α) :=
  (writes.map Prod.fst).eraseDups.filterMap fun name =>
    (find? name writes.reverse).map fun value => (name, value)

/- The writes under the names that are kept. -/
def kept (writes : List (String × α)) : List (String × α) :=
  writes.map fun write =>
    (Spelling.underscored write.1, write.2)

@[simp] theorem kept_append
    (first second : List (String × α)) :
    kept (first ++ second) = kept first ++ kept second :=
  List.map_append

/- A name with one spelling is looked up in that spelling. -/
theorem find?_kept
    {name : String}
    (hName :
      ∀ other, Spelling.underscored other = name ↔ other = name)
    (entries : List (String × α)) :
    find? name (kept entries) = find? name entries := by
  induction entries with
  | nil => rfl
  | cons entry rest ih =>
      rcases entry with ⟨k, v⟩
      have hHead :
          kept ((k, v) :: rest) =
            (Spelling.underscored k, v) :: kept rest := rfl
      rw [hHead, find?, find?, ih]
      simp only [hName]

/- Of the names that are chosen, a write adds only its own. -/
theorem filter_put
    (choice : String → Bool)
    (name : String)
    (value : α)
    (entries : List (String × α)) :
    (put name value entries).filter (fun e => choice e.1) =
      if choice name then
        put name value (entries.filter fun e => choice e.1)
      else
        entries.filter fun e => choice e.1 := by
  induction entries with
  | nil =>
      rw [put, List.filter_cons]
      rfl
  | cons entry rest ih =>
      rcases entry with ⟨k, v⟩
      rw [put]
      by_cases hName : k = name
      · subst hName
        rw [if_pos rfl, List.filter_cons, List.filter_cons]
        split
        · rw [put, if_pos rfl]
        · rfl
      · rw [if_neg hName, List.filter_cons, List.filter_cons,
          ih]
        by_cases hKey : choice k = true
        · rw [if_pos hKey, if_pos hKey]
          split
          · rw [put, if_neg hName]
          · rfl
        · rw [if_neg hKey, if_neg hKey]

end Entries

namespace Bag

variable {α : Type}

theorem entries_ofList (writes : List (String × α)) :
    (ofList writes).entries = Entries.lastWritten writes := by
  have hGet (name : String) :
      (ofList writes).get? name =
        Entries.find? name writes.reverse := by
    rw [ofList, get?_overlay_reverse]
    exact Option.or_none
  rw [entries_eq_filterMap, ofList, keys_overlay]
  exact List.filterMap_congr fun name _ => by rw [← hGet]; rfl

/- The entries under the names that are chosen. -/
def restrict
    (choice : String → Bool)
    (bag : Bag α) : Bag α :=
  ⟨bag.entries.filter fun e => choice e.1,
    (List.filter_sublist.map Prod.fst).nodup bag.keys_nodup⟩

/-
  A choice of names is kept through a write, or does not see
  it.
-/
theorem restrict_insert
    (choice : String → Bool)
    (bag : Bag α)
    (name : String)
    (value : α) :
    (bag.insert name value).restrict choice =
      if choice name then
        (bag.restrict choice).insert name value
      else
        bag.restrict choice := by
  apply ext
  refine (Entries.filter_put choice name value _).trans ?_
  split
  · rfl
  · rfl

/- Only the writes under the chosen names matter for these. -/
theorem restrict_overlay
    (choice : String → Bool)
    (bag : Bag α)
    (writes : List (String × α)) :
    (bag.overlay writes).restrict choice =
      (bag.restrict choice).overlay
        (writes.filter fun e => choice e.1) := by
  induction writes generalizing bag with
  | nil => rfl
  | cons write rest ih =>
      rw [overlay_cons, ih, restrict_insert, List.filter_cons]
      split
      · rfl
      · rfl

theorem filter_entries_ofList
    (choice : String → Bool)
    (writes : List (String × α)) :
    (ofList writes).entries.filter (fun e => choice e.1) =
      Entries.lastWritten
        (writes.filter fun e => choice e.1) := by
  rw [← entries_ofList]
  exact congrArg entries (restrict_overlay choice empty writes)

end Bag

------------------------------------------------------------
-- Options
------------------------------------------------------------

namespace Layer

/- The names that a new layer gets beside its options. -/
def namesOnCreation : List String :=
  ["id", "source", "source_layer"]

/- Properties from options, and then from the creation. -/
def StartsFrom
    (options : List (String × Value))
    (properties : Bag Value) : Prop :=
  ∃ own : List (String × Value),
    (∀ write ∈ own, write.1 ∈ namesOnCreation) ∧
      properties = Bag.ofList (Entries.kept options ++ own)

variable {options : List (String × Value)}

/-
  Writes under the names of the creation are counted among
  its own.
-/
theorem StartsFrom.insert
    {properties : Bag Value}
    {name : String}
    (h : StartsFrom options properties)
    (hName : name ∈ namesOnCreation)
    (value : Value) :
    StartsFrom options (properties.insert name value) := by
  rcases h with ⟨own, hOwn, rfl⟩
  refine ⟨own ++ [(name, value)], ?_, ?_⟩
  · rw [List.forall_mem_append, List.forall_mem_singleton]
    exact ⟨hOwn, hName⟩
  · rw [← List.append_assoc, Bag.ofList, Bag.ofList,
      Bag.overlay_append _ (_ ++ _)]
    rfl

/-
  Under names that creation does not give, a layer has what
  options and later writes leave.
-/
theorem StartsFrom.filter_overlay
    {properties : Bag Value}
    (h : StartsFrom options properties)
    {choice : String → Bool}
    (hOwn : ∀ name ∈ namesOnCreation, choice name = false)
    (writes : List (String × Value)) :
    (properties.overlay (Entries.kept writes)).entries.filter
        (fun property => choice property.1) =
      Entries.lastWritten
        ((Entries.kept (options ++ writes)).filter
          fun write => choice write.1) := by
  rcases h with ⟨own, hNames, rfl⟩
  have hNone :
      own.filter (fun write => choice write.1) = [] := by
    rw [List.filter_eq_nil_iff]
    intro write hWrite
    rw [hOwn write.1 (hNames write hWrite)]
    exact Bool.false_ne_true
  rw [Bag.ofList, ← Bag.overlay_append, ← Bag.ofList,
    Bag.filter_entries_ofList, Entries.kept_append,
    List.filter_append, List.filter_append, List.filter_append,
    hNone, List.append_nil]

/-
  Under names that creation does not give, a layer has what
  the last of its options gives.
-/
theorem StartsFrom.get?_eq
    {properties : Bag Value}
    {name : String}
    (h : StartsFrom options properties)
    (hOwn : name ∉ namesOnCreation) :
    properties.get? name =
      Entries.find? name (Entries.kept options.reverse) := by
  rcases h with ⟨own, hNames, rfl⟩
  have hNone : Entries.find? name own.reverse = none := by
    rw [← Option.not_isSome_iff_eq_none,
      Entries.find?_isSome_iff, List.map_reverse,
      List.mem_reverse]
    intro hMem
    rcases List.mem_map.mp hMem with ⟨write, hWrite, rfl⟩
    exact hOwn (hNames write hWrite)
  rw [Bag.ofList, Bag.get?_overlay_reverse,
    List.reverse_append, Entries.find?_append, hNone,
    Option.none_or]
  unfold Entries.kept
  rw [List.map_reverse]
  exact Option.or_none

theorem StartsFrom.get?_overlay_eq_none
    {properties : Bag Value}
    (h : StartsFrom options properties)
    {name : String}
    {writes : List (String × Value)}
    (hOwn : name ∉ namesOnCreation)
    (hWrites :
      ∀ write ∈ options ++ writes,
        Spelling.underscored write.1 ≠ name) :
    (properties.overlay (Entries.kept writes)).get? name =
      none := by
  have hKept
      {given : List (String × Value)}
      (hOther :
        ∀ write ∈ given, Spelling.underscored write.1 ≠ name) :
      name ∉ (Entries.kept given).map Prod.fst := by
    rw [Entries.kept, List.map_map]
    intro hMem
    rcases List.mem_map.mp hMem with ⟨write, hWrite, hName⟩
    exact hOther write hWrite hName
  rw [List.forall_mem_append] at hWrites
  rw [Bag.get?_overlay_of_not_mem _ (hKept hWrites.2),
    h.get?_eq hOwn, ← Option.not_isSome_iff_eq_none,
    Entries.find?_isSome_iff]
  apply hKept
  intro write hWrite
  exact hWrites.1 write (List.mem_reverse.mp hWrite)

/- Every new layer starts from its options. -/
theorem create_startsFrom
    (id : String)
    (options : List (String × Value))
    (sources : Sources) :
    StartsFrom options
      (create id options sources).properties := by
  let named :=
    ofProperties
      ((Bag.ofList (Entries.kept options)).insert "id"
        (.text id))
  have hNamed : StartsFrom options named.properties := by
    have hOptions :
        StartsFrom options
          (Bag.ofList (Entries.kept options)) :=
      ⟨[], by simp, by rw [List.append_nil]⟩
    exact hOptions.insert (by decide) _
  have hSource :
      StartsFrom options
        (named.withSource sources).properties := by
    rcases withSource_cases named sources with
      hSame | ⟨source, hPut⟩
    · rw [hSame]
      exact hNamed
    · rw [hPut]
      exact hNamed.insert (by decide) source
  have hCreate :
      create id options sources =
        (named.withSource sources).withSourceLayer id
          sources := rfl
  rw [hCreate]
  rcases
    withSourceLayer_cases (named.withSource sources) id
      sources with
    hSame | ⟨part, hPut⟩
  · rw [hSame]
    exact hSource
  · rw [hPut]
    exact hSource.insert (by decide) part

end Layer

------------------------------------------------------------
-- Assignments
------------------------------------------------------------

/- Whether layout or paint has a name, in either spelling. -/
def Property.isDrawn (name : String) : Bool :=
  match classify? name with
  | some cls => cls.impliesType
  | none => false

/-
  The ways to assign a property: with a value, with one that
  is computed from the current one, by a call of its name, and
  by a statement.
-/
inductive Assignment
  | set (name : String) (value : Value)
  | update (name : String) (change : Option Value → Value)
  | call (name : String) (args : List Value)
  | statement (name : String) (args : List Argument)

namespace Assignment

/- The name, in the spelling that is used. -/
def name : Assignment → String
  | .set name _ => name
  | .update name _ => name
  | .call name _ => name
  | .statement name _ => name

/-
  Whether layout or paint has the property. What is called by
  the name of an extension assigns nothing by itself.
-/
def isDrawn
    (extensions : Bag Recipe)
    (a : Assignment) : Bool :=
  Property.isDrawn a.name &&
    match a with
    | .set _ _ => true
    | .update _ _ => true
    | .call name _ => !extensions.contains name
    | .statement name _ => !extensions.contains name

/-
  An assignment that draws has a drawn name, whatever its
  form.
-/
theorem name_isDrawn
    {extensions : Bag Recipe}
    {a : Assignment}
    (h : a.isDrawn extensions = true) :
    Property.isDrawn a.name = true := by
  unfold isDrawn at h
  rw [Bool.and_eq_true] at h
  exact h.1

/- Perform an assignment. -/
def perform (run : Runner) : Assignment → Build Failure Unit
  | .set name value => Build.assign name value
  | .update name change => fun w =>
      Build.assign name (change (w.layer.get? name)) w
  | .call name args => do
      let _ ← Build.call run name args
      pure ()
  | .statement name args =>
      Body.runStatement run (.mk name args none)

/-
  The value that is assigned. Arguments of a statement may
  fail to have values; then the statement fails, too.
-/
def value (w : Workbench) : Assignment → Value
  | .set _ value => value
  | .update name change => change (w.layer.get? name)
  | .call _ args => Build.assignedValue args
  | .statement _ args =>
      match
        ((Scope.inLayer w).evaluateArguments args).outcome with
      | .ok values => Build.assignedValue values
      | .error _ => .null

/- Perform assignments in order, up to the first that fails. -/
def performAll
    (run : Runner) : List Assignment → Build Failure Unit
  | [] => pure ()
  | a :: rest => do
      perform run a
      performAll run rest

/- The names that are assigned, as spelled, with the values. -/
def writes
    (run : Runner) :
    List Assignment → Workbench → List (String × Value)
  | [], _ => []
  | a :: rest, w =>
      match perform run a w with
      | .ok _ v => (a.name, a.value w) :: writes run rest v
      | .error _ _ => []

end Assignment

------------------------------------------------------------
-- Single assignments
------------------------------------------------------------

/- No function has the name of a property that is drawn. -/
theorem Property.isFunction_of_isDrawn
    {name : String}
    (h : Property.isDrawn name = true) :
    Vocabulary.isFunction name = false := by
  have hAll :
      ∀ function ∈ Vocabulary.functions,
        Property.isDrawn function = false := by
    decide +kernel
  apply Bool.eq_false_iff.mpr
  intro hFunction
  have hNot :=
    hAll name (List.contains_iff_mem.mp hFunction)
  rw [h] at hNot
  cases hNot

theorem Meaning.ofName_of_isDrawn
    {name : String}
    (h : Property.isDrawn name = true) :
    ∃ cls, ofName name = .property cls := by
  unfold ofName
  rw [if_neg (by simp [Property.isFunction_of_isDrawn h])]
  unfold Property.isDrawn at h
  cases hClass : Property.classify? name with
  | none =>
      rw [hClass] at h
      cases h
  | some cls =>
      rw [hClass] at h
      cases cls with
      | layout => exact ⟨.layout, rfl⟩
      | paint => exact ⟨.paint, rfl⟩
      | topLevel => cases h
      | hidden => cases h

namespace Assignment

variable {run : Runner}
variable {w u : Workbench}

theorem perform_statement_eq_ok
    {name : String}
    {cls : PropertyClass}
    {args : List Argument}
    (hNone : w.sheet.extensions.get? name = none)
    (hName : Meaning.ofName name = .property cls)
    (h : perform run (.statement name args) w = .ok () u) :
    w.layer.set name (value w (.statement name args)) =
        .ok u.layer ∧
      u.sheet = w.sheet := by
  unfold perform Body.runStatement at h
  rcases Action.bind_eq_ok.mp h with
    ⟨values, logged, hEvaluated, hRun⟩
  unfold Build.evaluated at hEvaluated
  rcases Build.traced_eq_ok.mp hEvaluated with
    ⟨hOutcome, hLogged⟩
  have hValues :
      ((Scope.inLayer w).evaluateArguments args).outcome =
        .ok values :=
    Traced.mapError_eq_ok.mp hOutcome
  have hValue :
      value w (.statement name args) =
        Build.assignedValue values := by
    simp only [value, hValues]
  have hLayer : logged.layer = w.layer := by rw [hLogged]
  have hSheet : logged.sheet = w.sheet := by rw [hLogged]
  have hKeyword := Statement.not_mem_keywords_of_property hName
  rw [← hSheet] at hNone ⊢
  rw [hValue, ← hLayer]
  split at hRun
  · exact absurd (by decide) hKeyword
  · exact absurd (by decide) hKeyword
  · rcases Action.bind_eq_ok.mp hRun with
      ⟨_, same, hBlock, hSimple⟩
    rcases Body.refuseBlock_eq_ok.mp hBlock with ⟨_, rfl⟩
    rw [Body.runSimple_of_not_keyword run _ hKeyword] at hSimple
    rcases Action.bind_eq_ok.mp hSimple with
      ⟨answer, v, hCall, hLast⟩
    rcases Build.call_eq_ok_of_property hNone hName hCall with
      ⟨rfl, hSet, hSame⟩
    cases hLast
    exact ⟨hSet, hSame⟩

/- However it is made, an assignment sets its property. -/
theorem perform_eq_ok
    {a : Assignment}
    (hDrawn : a.isDrawn w.sheet.extensions = true)
    (h : a.perform run w = .ok () u) :
    w.layer.set a.name (a.value w) = .ok u.layer ∧
      u.sheet = w.sheet := by
  unfold isDrawn at hDrawn
  rw [Bool.and_eq_true] at hDrawn
  rcases hDrawn with ⟨hName, hPlain⟩
  rcases Meaning.ofName_of_isDrawn hName with ⟨cls, hMeaning⟩
  cases a with
  | set name value =>
      rcases Build.assign_eq_ok.mp h with ⟨next, hSet, rfl⟩
      exact ⟨hSet, rfl⟩
  | update name change =>
      rcases Build.assign_eq_ok.mp h with ⟨next, hSet, rfl⟩
      exact ⟨hSet, rfl⟩
  | call name args =>
      have hNone : w.sheet.extensions.get? name = none := by
        simpa [Bag.contains] using hPlain
      rcases Action.bind_eq_ok.mp h with
        ⟨answer, v, hCall, hPure⟩
      cases hPure
      exact (Build.call_eq_ok_of_property hNone hMeaning hCall).2
  | statement name args =>
      have hNone : w.sheet.extensions.get? name = none := by
        simpa [Bag.contains] using hPlain
      exact perform_statement_eq_ok hNone hMeaning h

------------------------------------------------------------
-- Sequences of assignments
------------------------------------------------------------

/-
  What assignments outside of every cascade do to a layer:
  each writes its property, and there is still no cascade.
-/
theorem performAll_eq_ok
    {assignments : List Assignment} :
    ∀ {w : Workbench},
      w.layer.active = none →
        w.layer.Kept →
          (∀ a ∈ assignments,
              a.isDrawn w.sheet.extensions = true) →
            performAll run assignments w = .ok () u →
              u.layer.properties =
                  w.layer.properties.overlay
                    (Entries.kept
                      (writes run assignments w)) ∧
                u.layer.Kept := by
  induction assignments with
  | nil =>
      intro w _ hKept _ h
      cases h
      exact ⟨rfl, hKept⟩
  | cons a rest ih =>
      intro w hActive hKept hDrawn h
      rw [List.forall_mem_cons] at hDrawn
      rcases Action.bind_eq_ok.mp h with
        ⟨_, v, hPerform, hRest⟩
      rcases perform_eq_ok hDrawn.1 hPerform with
        ⟨hSet, hSheet⟩
      have hNext : v.layer.Kept := hKept.set hSet
      have hWrites :
          writes run (a :: rest) w =
            (a.name, a.value w) :: writes run rest v := by
        rw [writes, hPerform]
      rcases Layer.set_cases hSet with
        ⟨condition, hSome, _⟩ | ⟨settled, _, _, hPut⟩
      · rw [hActive] at hSome
        cases hSome
      · have hStill : v.layer.active = none := by
          rw [hPut]
          exact hActive
        have hStep :
            v.layer.properties =
              w.layer.properties.insert
                (Spelling.underscored a.name) (a.value w) := by
          rw [hPut]
          rfl
        rw [← hSheet] at hDrawn
        rcases ih hStill hNext hDrawn.2 hRest with
          ⟨hProperties, hLast⟩
        refine ⟨?_, hLast⟩
        rw [hProperties, hStep, hWrites]
        rfl

/- What is written has the names of the assignments. -/
theorem exists_of_mem_writes
    {assignments : List Assignment}
    {write : String × Value} :
    ∀ {w : Workbench},
      write ∈ writes run assignments w →
        ∃ a ∈ assignments, write.1 = a.name := by
  induction assignments with
  | nil =>
      intro w h
      cases h
  | cons a rest ih =>
      intro w h
      rw [writes] at h
      split at h
      · rcases List.mem_cons.mp h with rfl | hRest
        · exact ⟨a, List.mem_cons_self, rfl⟩
        · rcases ih hRest with ⟨b, hB, hName⟩
          exact ⟨b, List.mem_cons_of_mem _ hB, hName⟩
      · cases h

end Assignment

------------------------------------------------------------
-- Written parts
------------------------------------------------------------

namespace Layer

/-
  The members of a part for the properties of its class that
  have been written.
-/
def drawnMembers
    (cls : PropertyClass)
    (writes : List (String × Value)) : List (String × Json) :=
  (Entries.lastWritten
    ((Entries.kept writes).filter fun write =>
      Property.classify? write.1 = some cls)).map member

/- The part that they make up, unless there are none. -/
def drawnPart?
    (cls : PropertyClass)
    (writes : List (String × Value)) : Option Json :=
  if (drawnMembers cls writes).isEmpty then
    none
  else
    some (.object (drawnMembers cls writes))

variable {layer : Layer}
variable {options writes : List (String × Value)}
variable {properties : Bag Value}
variable {part : String × PropertyClass}

theorem StartsFrom.membersOf_part
    (h : StartsFrom options properties)
    (hWritten :
      layer.properties =
        properties.overlay (Entries.kept writes))
    (hPart : part ∈ partClasses) :
    layer.membersOf [part.2] =
      drawnMembers part.2 (options ++ writes) := by
  have hOwn :
      ∀ part ∈ partClasses,
        ∀ name ∈ namesOnCreation,
          decide (Property.classify? name = some part.2) =
            false := by
    decide +kernel
  have hChoice :
      isOf [part.2] = fun entry =>
        decide (Property.classify? entry.1 = some part.2) := by
    funext entry
    rw [Bool.eq_iff_iff, decide_eq_true_iff]
    exact isOf_part part hPart entry
  rw [membersOf, membersAmong, hWritten, hChoice,
    h.filter_overlay (hOwn part hPart)]
  rfl

/- No property has the name of a part but by a write. -/
theorem StartsFrom.given?_part
    (h : StartsFrom options properties)
    (hWritten :
      layer.properties =
        properties.overlay (Entries.kept writes))
    (hPart : part ∈ partClasses)
    (hNames : ∀ write ∈ options ++ writes, write.1 ≠ part.1) :
    layer.given? part.1 = none := by
  have hOwn :
      ∀ part ∈ partClasses, part.1 ∉ namesOnCreation := by
    decide
  have hSpelling :
      ∀ part ∈ partClasses, '_' ∉ part.1.toList := by
    decide
  have hNone : layer.properties.get? part.1 = none := by
    rw [hWritten]
    apply h.get?_overlay_eq_none (hOwn part hPart)
    intro write hWrite hName
    exact
      hNames write hWrite
        (Spelling.eq_of_replace_eq (hSpelling part hPart) hName)
  rw [given?, hNone]
  rfl

end Layer

namespace Assignment

variable {run : Runner}
variable {w u : Workbench}

/-
  A layer that has been created from options, and to which
  assignments outside of every cascade have been made, has
  each property of layout and paint once: in the order in
  which they are first written, options before assignments,
  and with the value that is written last. If the layer has an
  output and no option takes the place of a part, the parts
  have them in this order, too.
-/
theorem lastWritten_of_performAll
    {id : String}
    {options : List (String × Value)}
    {sources : Sources}
    {assignments : List Assignment}
    (hLayer : w.layer = .create id options sources)
    (hDrawn :
      ∀ a ∈ assignments, a.isDrawn w.sheet.extensions = true)
    (hRun : performAll run assignments w = .ok () u) :
    (u.layer.properties.entries.filter fun property =>
        Property.isDrawn property.1) =
      Entries.lastWritten
        ((Entries.kept
            (options ++ writes run assignments w)).filter
          fun write => Property.isDrawn write.1) ∧
      ∀ out,
        u.layer.write? = .ok (some out) →
          (∀ part ∈ Layer.partClasses,
              part.1 ∉ options.map Prod.fst) →
            ∀ part ∈ Layer.partClasses,
              ((Layer.drawnMembers part.2
                  (options ++ writes run assignments w)).map
                Prod.fst).Nodup ∧
                out.get? part.1 =
                  Layer.drawnPart? part.2
                    (options ++
                      writes run assignments w) := by
  have hActive : w.layer.active = none := by
    rw [hLayer]
    exact Layer.create_active id options sources
  have hCreated : w.layer.Kept := by
    rw [hLayer]
    exact Layer.create_kept id options sources
  have hStart :
      Layer.StartsFrom options w.layer.properties := by
    rw [hLayer]
    exact Layer.create_startsFrom id options sources
  rcases performAll_eq_ok hActive hCreated hDrawn hRun with
    ⟨hWritten, hKept⟩
  refine ⟨?_, ?_⟩
  · have hOwn :
        ∀ name ∈ Layer.namesOnCreation,
          Property.isDrawn name = false := by
      decide +kernel
    rw [hWritten]
    exact hStart.filter_overlay hOwn _
  · intro out hWrite hOptions part hPart
    have hNames :
        ∀ write ∈ options ++ writes run assignments w,
          write.1 ≠ part.1 := by
      have hPlain :
          ∀ part ∈ Layer.partClasses,
            Property.isDrawn part.1 = false := by
        decide +kernel
      rw [List.forall_mem_append]
      refine ⟨?_, ?_⟩
      · rintro option hOption hName
        apply hOptions part hPart
        rw [← hName]
        exact List.mem_map_of_mem hOption
      · intro write hWrite hName
        rcases exists_of_mem_writes hWrite with ⟨a, hA, hSame⟩
        have hNamed := name_isDrawn (hDrawn a hA)
        rw [← hSame, hName, hPlain part hPart] at hNamed
        cases hNamed
    have hMembers := hStart.membersOf_part hWritten hPart
    have hNodup :
        ((u.layer.membersOf [part.2]).map Prod.fst).Nodup :=
      hKept.members_nodup _
    have hMember := hKept.get?_part_of_write? hWrite hPart
    rw [hStart.given?_part hWritten hPart hNames,
      Option.none_or, Layer.part?] at hMember
    rw [hMembers] at hNodup hMember
    exact ⟨hNodup, hMember⟩

/-
  Options in both spellings, and assignments of each kind that
  come back to them and to each other. An extension may have
  the name of something else.
-/
def thin : List (String × Value) :=
  [("line-width", .int 1), ("metadata", .null),
    ("line_cap", .text "round"), ("line_width", .int 2)]

def thickened : List Assignment :=
  [.set "line_opacity" (.int 1),
    .update "line-width" fun width =>
      .list [width.getD .null, .int 3],
    .call "line-cap" [.text "butt"],
    .statement "line-opacity" [.positional (.literal (.int 0))]]

def roads : Workbench where
  layer := .create "roads" thin .empty
  sheet :=
    { Stylesheet.empty with
      extensions := .ofList [("lanes", ⟨[]⟩)] }
  log := #[]

theorem lastWritten_of_performAll_thickened :
    ∃ u out,
      performAll Recipe.runner thickened roads = .ok () u ∧
        u.layer.write? = .ok (some out) ∧
        (u.layer.properties.entries.filter fun property =>
            Property.isDrawn property.1).map
          (fun property => (property.1, property.2.jsonText)) =
        [("line_width", "[2,3]"), ("line_cap", "\"butt\""),
          ("line_opacity", "0")] ∧
        (out.get? "layout").map Json.compact =
          some "\x7b\"line-cap\":\"butt\"\x7d" ∧
        (out.get? "paint").map Json.compact =
          some
            "\x7b\"line-width\":[2,3],\"line-opacity\":0\x7d" := by
  have hCheck :
      Action.succeeds (performAll Recipe.runner thickened)
            roads =
          true ∧
        (Build.after (performAll Recipe.runner thickened)
            roads).layer.writtenNames?.isSome =
          true := by
    decide +kernel
  rcases Action.exists_of_succeeds hCheck.1 with ⟨_, u, hRun⟩
  have hOutput := hCheck.2
  rw [Build.after_of_ok hRun] at hOutput
  rcases Layer.exists_of_writtenNames? hOutput with
    ⟨out, hWrite⟩
  have hCreated :
      roads.layer = .create "roads" thin .empty := rfl
  rcases
    lastWritten_of_performAll hCreated (by decide +kernel)
      hRun with
    ⟨hBag, hParts⟩
  have hEach := hParts out hWrite (by decide +kernel)
  refine ⟨u, out, hRun, hWrite, ?_⟩
  rw [hBag, (hEach ("layout", .layout) (by decide)).2,
    (hEach ("paint", .paint) (by decide)).2]
  decide +kernel

end Assignment

end MapStyle
