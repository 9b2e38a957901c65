import QueryProjection.Proofs.Evaluation.Substitution
import QueryProjection.Proofs.Request.Paging

set_option autoImplicit false

namespace QueryProjection

open Outcome Evaluation

def Lambda.valueWith (lambda : Lambda) (rows : List Value) (scope : Scope) (argument : Expr) :
    Outcome Value := do
  eval rows ((lambda.parameter.name, ← eval rows scope argument) :: scope) lambda.body

theorem Expr.valueWith_arrangeCalls {levels : List OrderLevel} (keys : OrderLevel.AreKeys levels)
    {skip top : Option Nat} {rows : List Value} {scope : Scope} {lambda : Lambda}
    (apart : elementName ≠ lambda.parameter.name)
    (body : lambda.body = arrangeCalls levels skip top (.parameter lambda.parameter))
    (argument : Expr) :
    Agree (lambda.valueWith rows scope argument) (eval rows scope (lambda.applyTo argument)) := by
  obtain ⟨target, inner⟩ := lambda
  obtain rfl : inner = arrangeCalls levels skip top (.parameter target) := body
  have outside : Arranges levels skip top argument _ := arranges_applyTo keys apart argument
  unfold Lambda.valueWith
  cases evaluated : eval rows scope argument with
  | error cause =>
    obtain ⟨cause', failed⟩ := outside.fails evaluated
    rw [failed]
    exact .failed _ _
  | ok value =>
    have alike : Resembles rows True ((target.name, value) :: scope) scope (.parameter target) argument :=
      resembles_replacement evaluated (by simp) fun _ _ => rfl
    have inside := arranges_arrangeCalls levels skip top (.parameter target)
    exact (inside.resembles outside keys.closed alike).value.related trivial

namespace Refiner

theorem valueWith_transform {refiner : Refiner} {element : String} {arrangement : Arrangement}
    {transform used : Lambda} (bound : refiner.transformOf element arrangement = .ok transform)
    (isUsed : used = transform ∨ refiner.mapping.lambdaToSource transform = .ok used)
    (rows : List Value) (scope : Scope) (argument : Expr) :
    Agree (used.valueWith rows scope argument) (eval rows scope (used.applyTo argument)) := by
  -- The keys name their elements otherwise than the sequence, before and after they are carried over.
  have apart : elementName ≠ "q" := by decide
  obtain ⟨levels, -, keys, -, rfl⟩ := transformOf_eq_ok bound
  rcases isUsed with rfl | translated
  · exact Expr.valueWith_arrangeCalls keys apart rfl argument
  · obtain ⟨mapped, areMapped, rfl⟩ := (Mapping.lambdaToSource_arrangeCalls _ _ _ _).1 translated
    exact Expr.valueWith_arrangeCalls (Mapping.levelsToSource_spec keys areMapped).1 apart rfl argument

def transformAt (refiner : Refiner) (transform : Lambda) : RefinementSite → Outcome Lambda
  | .model => .ok transform
  | .belowSelection | .mapped => refiner.mapping.lambdaToSource transform

def argumentAt (sequence : Expr) : RefinementSite → Expr
  | .belowSelection => sequence
  | .model | .mapped => .apply .asQueryable [sequence]

theorem arrangementChange_eq (refiner : Refiner) (transform : Lambda) (site : RefinementSite)
    (sequence : Expr) :
    refiner.arrangementChange transform site sequence = (do
      return (← refiner.transformAt transform site).applyTo (argumentAt sequence site)) := by
  cases site <;> rfl

end Refiner

namespace FilteredRequest

variable {filtered : FilteredRequest}

def refiner (filtered : FilteredRequest) : Refiner := ⟨filtered.request.mapping, filtered.context⟩

theorem arranged_eq (someArrangement : filtered.request.arrangement.isEmpty = false) :
    filtered.arranged = (do
      let transform ←
        filtered.refiner.transformOf filtered.request.model filtered.request.arrangement
      let used ← filtered.request.mapping.lambdaToSource transform
      return used.applyTo filtered.query.expression) := by
  simp only [arranged, someArrangement, Bool.false_eq_true, if_false, Refiner.transformOf, bind_assoc,
    pure_bind]
  rfl

end FilteredRequest

/-- The expression is the lambda applied to the argument, and has the same value everywhere. -/
structure Lambda.InlinedAs (lambda : Lambda) (argument inlined : Expr) : Prop where
  applied : inlined = lambda.applyTo argument
  agrees : ∀ rows scope, Agree (lambda.valueWith rows scope argument) (eval rows scope inlined)

/-- An expression that stands for a parameter keeps every value that the parameter gave, and the same
fail, unless a call refines the parameter and so comes to see an order. The transforms of whole
requests and of expanded members can be inlined in any sequence. -/
theorem Expr.substitute_means_same :
    (∀ (expr : Expr) (target : Parameter) (replacement : Expr) (rows : List Value) (scope : Scope)
      (value : Value), expr.Admits target replacement → eval rows scope replacement = .ok value →
        (∀ result, eval rows ((target.name, value) :: scope) expr = .ok result →
          eval rows scope (substitute target replacement expr) = .ok result) ∧
        ((replacement.isOrderingCall = true → expr.NeverRefines target) →
          Agree (eval rows ((target.name, value) :: scope) expr)
            (eval rows scope (substitute target replacement expr)))) ∧
    (∀ (filtered : FilteredRequest) (arranged : Expr),
      filtered.request.arrangement.isEmpty = false → filtered.arranged = .ok arranged →
        ∃ transform used,
          filtered.refiner.transformOf filtered.request.model filtered.request.arrangement =
            .ok transform ∧
          filtered.request.mapping.lambdaToSource transform = .ok used ∧
          used.InlinedAs filtered.query.expression arranged) ∧
    (∀ (refiner : Refiner) (element : String) (arrangement : Arrangement) (transform : Lambda)
      (site : RefinementSite) (sequence changed : Expr),
      refiner.transformOf element arrangement = .ok transform →
      refiner.arrangementChange transform site sequence = .ok changed →
        ∃ used, refiner.transformAt transform site = .ok used ∧
          used.InlinedAs (Refiner.argumentAt sequence site) changed) := by
  refine ⟨?_, ?_, ?_⟩
  · intro expr target replacement rows scope value admits evaluates
    exact ⟨fun result isResult => eval_substitute_of_eq_ok admits evaluates isResult,
      eval_substitute_agree admits evaluates⟩
  · intro filtered arranged someArrangement isArranged
    simp only [FilteredRequest.arranged_eq someArrangement, bind_eq_ok, pure_eq_ok] at isArranged
    obtain ⟨transform, bound, used, translated, rfl⟩ := isArranged
    have agrees := Refiner.valueWith_transform bound (.inr translated)
    exact ⟨transform, used, bound, translated, rfl, fun rows scope => agrees rows scope _⟩
  · intro refiner element arrangement transform site sequence changed bound made
    simp only [Refiner.arrangementChange_eq, bind_eq_ok, pure_eq_ok] at made
    obtain ⟨used, isUsed, rfl⟩ := made
    have known : used = transform ∨ refiner.mapping.lambdaToSource transform = .ok used := by
      cases site with
      | model => exact .inl (Except.ok.inj isUsed).symm
      | belowSelection | mapped => exact .inr isUsed
    have agrees := Refiner.valueWith_transform bound known
    exact ⟨used, isUsed, rfl, fun rows scope => agrees rows scope _⟩

section Numbers

def numberParameter (name : String) : Parameter := ⟨name, .named "Number"⟩

def valueOfNumber (name : String) : Expr :=
  .member (.parameter (numberParameter name)) "Value" (.scalar .int32)

def byValue : Lambda := ⟨numberParameter "x", valueOfNumber "x"⟩

def boundParameter : Parameter := ⟨"bound", .scalar .int32⟩

def numbersAboveBound : Expr :=
  (Expr.allRows "Number").filteredBy
    ⟨numberParameter "x", .binary .gt (valueOfNumber "x") (.parameter boundParameter)⟩

def orderedByValue : Expr := .apply .orderBy [.allRows "Number", .ofLambda byValue]

def sortedNumbers : Parameter := ⟨"q", orderedByValue.type⟩

def firstSorted : Expr := .taken (.parameter sortedNumbers) 2

def arrangedNumbers : FilteredRequest := ⟨Request.allNumbers, ⟨true, none⟩, "Number", Request.numbers⟩

theorem Expr.substitute_means_same_numbers :
    (numbersAboveBound.Admits boundParameter (valueOfNumber "row") ∧
      eval Request.threeNumbers.rows [("row", .record "Number" [("Value", .int 2)])]
        (substitute boundParameter (valueOfNumber "row") numbersAboveBound) =
          .ok (.list [.record "Number" [("Value", .int 3)]])) ∧
    (firstSorted.Admits sortedNumbers orderedByValue ∧ firstSorted.NeverRefines sortedNumbers ∧
      Agree (eval Request.threeNumbers.rows [("q", .list Request.threeNumbers.rows)] firstSorted)
        (eval Request.threeNumbers.rows [] (substitute sortedNumbers orderedByValue firstSorted))) ∧
    (∃ (arranged : Expr) (used : Lambda), arrangedNumbers.arranged = .ok arranged ∧
      used.InlinedAs (.allRows "Number") arranged) ∧
    ∃ (transform : Lambda) (changed : Expr) (used : Lambda),
      arrangedNumbers.refiner.transformOf "Number" Request.allNumbers.arrangement = .ok transform ∧
      arrangedNumbers.refiner.arrangementChange transform .mapped (.allRows "Number") = .ok changed ∧
      used.InlinedAs (.apply .asQueryable [.allRows "Number"]) changed := by
  have admits : numbersAboveBound.Admits boundParameter (valueOfNumber "row") := by decide
  have admitsOrder : firstSorted.Admits sortedNumbers orderedByValue := by decide
  have unrefined : firstSorted.NeverRefines sortedNumbers := by decide
  have above := (substitute_means_same.1 _ _ _ Request.threeNumbers.rows
    [("row", .record "Number" [("Value", .int 2)])] _ admits rfl).1 _ rfl
  have first := (substitute_means_same.1 _ _ _ Request.threeNumbers.rows [] _ admitsOrder rfl).2
    fun _ => unrefined
  obtain ⟨_, used, -, -, inlined⟩ := substitute_means_same.2.1 arrangedNumbers _ rfl rfl
  obtain ⟨used', -, inlined'⟩ := substitute_means_same.2.2 arrangedNumbers.refiner "Number"
    Request.allNumbers.arrangement _ .mapped (.allRows "Number") _ rfl rfl
  exact ⟨⟨admits, above⟩, ⟨admitsOrder, unrefined, first⟩, ⟨_, used, rfl, inlined⟩,
    _, _, used', rfl, rfl, inlined'⟩

def refinedByValue : Expr := .apply .thenBy [.parameter sortedNumbers, .ofLambda byValue]

theorem Expr.not_substitute_means_same_ordered :
    refinedByValue.Admits sortedNumbers orderedByValue ∧
      eval Request.threeNumbers.rows [] orderedByValue = .ok (.list Request.threeNumbers.rows) ∧
      ¬ Agree (eval Request.threeNumbers.rows [("q", .list Request.threeNumbers.rows)] refinedByValue)
        (eval Request.threeNumbers.rows [] (substitute sortedNumbers orderedByValue refinedByValue)) := by
  have fails : eval Request.threeNumbers.rows [("q", .list Request.threeNumbers.rows)] refinedByValue =
      .error _ := rfl
  have succeeds : eval Request.threeNumbers.rows []
      (substitute sortedNumbers orderedByValue refinedByValue) = .ok _ := rfl
  refine ⟨by decide, rfl, fun agree => ?_⟩
  rw [fails, succeeds] at agree
  cases agree

end Numbers

end QueryProjection
