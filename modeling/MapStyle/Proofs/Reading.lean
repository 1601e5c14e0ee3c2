import MapStyle.Evaluation.Term

/-
  What terms read of the layer in scope: its properties, and
  nothing else of it.

  Main statements:
    * `Scope.evaluate_congr`
    * `Scope.evaluateArguments_congr`
-/

namespace MapStyle

namespace Scope

variable {extensions : Bag Recipe}
variable {layer plain : Layer}

/- The current value of a property is one of its properties. -/
theorem currentValue_congr
    (h : plain.properties = layer.properties)
    (args : List Value)
    (name : String) :
    currentValue ⟨extensions, some plain⟩ args name =
      currentValue ⟨extensions, some layer⟩ args name := by
  simp only [currentValue, Layer.get?, h]

/-
  Of all functions, only that for the current value reads
  the layer.
-/
theorem call_congr
    (h : plain.properties = layer.properties)
    (name : String)
    (args : List Value) :
    call ⟨extensions, some plain⟩ name args =
      call ⟨extensions, some layer⟩ name args := by
  unfold call
  rw [currentValue_congr h]

mutual

/-
  Layers with the same properties give a term one value, and
  the same events on the way. The induction is on the term,
  with one lemma for each kind of list inside of it.
-/
theorem evaluate_congr
    (h : plain.properties = layer.properties) :
    (t : Term) →
      evaluate ⟨extensions, some plain⟩ t =
        evaluate ⟨extensions, some layer⟩ t
  | .literal value => by
      simp only [evaluate]
  | .ident name => by
      simp only [evaluate]
  | .list items => by
      simp only [evaluate, evaluateAll_congr h items]
  | .range lower upper => by
      simp only [evaluate, evaluateBound_congr h lower,
        evaluateBound_congr h upper]
  | .call name args => by
      simp only [evaluate, evaluateEach_congr h args,
        call_congr h]
  | .method subject name args => by
      simp only [evaluate, evaluate_congr h subject,
        evaluateEach_congr h args]
  | .index subject items => by
      simp only [evaluate, evaluate_congr h subject,
        evaluateAll_congr h items]
  | .binary left op right => by
      simp only [evaluate, evaluate_congr h left,
        evaluate_congr h right]
  | .unary op operand => by
      simp only [evaluate, evaluate_congr h operand]

theorem evaluateAll_congr
    (h : plain.properties = layer.properties) :
    (items : List Term) →
      evaluateAll ⟨extensions, some plain⟩ items =
        evaluateAll ⟨extensions, some layer⟩ items
  | [] => by
      simp only [evaluateAll]
  | t :: rest => by
      simp only [evaluateAll, evaluate_congr h t,
        evaluateAll_congr h rest]

/- A range may lack a bound. -/
theorem evaluateBound_congr
    (h : plain.properties = layer.properties) :
    (bound : Option Term) →
      evaluateBound ⟨extensions, some plain⟩ bound =
        evaluateBound ⟨extensions, some layer⟩ bound
  | none => by
      simp only [evaluateBound]
  | some t => by
      simp only [evaluateBound, evaluate_congr h t]

theorem evaluateEach_congr
    (h : plain.properties = layer.properties) :
    (args : List Argument) →
      evaluateEach ⟨extensions, some plain⟩ args =
        evaluateEach ⟨extensions, some layer⟩ args
  | [] => by
      simp only [evaluateEach]
  | .positional t :: rest => by
      simp only [evaluateEach, evaluate_congr h t,
        evaluateEach_congr h rest]
  | .keyword name t :: rest => by
      simp only [evaluateEach, evaluate_congr h t,
        evaluateEach_congr h rest]

end

/- The arguments of a call or a statement as a whole. -/
theorem evaluateArguments_congr
    (h : plain.properties = layer.properties)
    (args : List Argument) :
    evaluateArguments ⟨extensions, some plain⟩ args =
      evaluateArguments ⟨extensions, some layer⟩ args := by
  unfold evaluateArguments
  rw [evaluateEach_congr h args]

end Scope

end MapStyle
