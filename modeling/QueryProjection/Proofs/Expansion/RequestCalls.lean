import Mathlib.Algebra.BigOperators.Group.List.Basic
import QueryProjection.Proofs.Expansion.Calls
import QueryProjection.Proofs.Expansion.Records
import QueryProjection.Proofs.Expansion.Requests

set_option autoImplicit false

namespace QueryProjection

open Outcome

namespace ExpandRequest

def callsOf (request : ExpandRequest) : RefinementKind → List SequenceMethod
  | .filter => request.filter.toList.map fun _ => .filter
  | .arrangement => request.arrangement.calls

def calls (request : ExpandRequest) : List SequenceMethod :=
  request.callsOf .filter ++ request.callsOf .arrangement

/-- The members on the path are those that their types list, and are read from the source. -/
def FromSource (mapping : Mapping) (request : ExpandRequest) : Prop :=
  ∀ step ∈ request.path, step.ListedOn mapping.schema step.declaringType ∧
    (mapping.mapPath? step.declaringType step.memberName).isSome = true

variable {request : ExpandRequest} {kind : RefinementKind} {mapping : Mapping}

theorem callsOf_eq_nil (idle : request.carries kind = false) : request.callsOf kind = [] := by
  cases kind with
  | filter => simpa [carries, callsOf] using idle
  | arrangement =>
    have empty : request.arrangement.isEmpty = true := by simpa [carries] using idle
    rw [callsOf, Arrangement.eq_of_isEmpty empty]
    rfl

theorem calls_steps (context : BindingContext) (some_ : request.path ≠ [])
    (carries_ : request.carries kind = true) :
    ExpansionSteps.calls kind (request.steps context) = request.callsOf kind := by
  obtain ⟨before, last, ends⟩ := (List.eq_nil_or_concat request.path).resolve_left some_
  have isLast : (request.steps context).getLast? = some (request.lastStep context last) := by
    simp [steps, ends]
  rw [ExpansionSteps.calls, isLast]
  cases kind with
  | filter =>
    obtain ⟨filter, present⟩ := Option.isSome_iff_exists.1 carries_
    simp [ExpansionStep.calls, callsOf, present]
  | arrangement =>
    have some_ : request.arrangement.isEmpty = false := by simpa [carries] using carries_
    simp [ExpansionStep.calls, callsOf, lastStep, some_]

theorem flatMap_calls_steps (kind : RefinementKind) (context : BindingContext)
    {requests : List ExpandRequest} (some_ : ∀ request ∈ requests, request.path ≠ []) :
    ((requests.filter (·.carries kind)).map (·.steps context)).flatMap (ExpansionSteps.calls kind) =
      requests.flatMap (·.callsOf kind) := by
  induction requests with
  | nil => rfl
  | cons request rest ih =>
    obtain ⟨someHere, someLater⟩ := List.forall_mem_cons.1 some_
    cases carries_ : request.carries kind with
    | true => simp [carries_, calls_steps context someHere carries_, ← ih someLater]
    | false => simp [carries_, callsOf_eq_nil carries_, ← ih someLater]

theorem count_calls (request : ExpandRequest) {method : SequenceMethod} (other : method ≠ .filter) :
    request.calls.count method = request.arrangement.calls.count method := by
  simp [calls, callsOf, List.count_eq_zero, other]

section Counts

variable (requests : List ExpandRequest)

theorem count_eq_countP {method : SequenceMethod} {present : ExpandRequest → Bool}
    (each : ∀ request : ExpandRequest,
      request.calls.count method = if present request then 1 else 0) :
    (requests.flatMap calls).count method = requests.countP present := by
  induction requests with
  | nil => rfl
  | cons request rest ih =>
    rw [List.flatMap_cons, List.count_append, List.countP_cons, ih, each, Nat.add_comm]

theorem count_filters :
    (requests.flatMap calls).count .filter = requests.countP (·.filter.isSome) := by
  refine count_eq_countP requests fun request => ?_
  have arrangement := request.arrangement.count_calls_eq_zero (show .filter ∈ _ by simp)
  cases present : request.filter <;> simp [calls, callsOf, arrangement, present]

theorem count_skips :
    (requests.flatMap calls).count .skip = requests.countP (·.arrangement.skip.isSome) :=
  count_eq_countP requests fun request =>
    (request.count_calls (by decide)).trans request.arrangement.count_limits.1

theorem count_takes :
    (requests.flatMap calls).count .take = requests.countP (·.arrangement.top.isSome) :=
  count_eq_countP requests fun request =>
    (request.count_calls (by decide)).trans request.arrangement.count_limits.2

theorem count_orders :
    (requests.flatMap calls).count .orderBy + (requests.flatMap calls).count .orderByDescending =
      requests.countP fun request => !request.arrangement.order.isEmpty := by
  induction requests with
  | nil => rfl
  | cons request rest ih =>
    have orderings := request.arrangement.count_orderings.1
    simp only [List.flatMap_cons, List.count_append, List.countP_cons, count_calls request
      (show SequenceMethod.orderBy ≠ .filter by decide), count_calls request
      (show SequenceMethod.orderByDescending ≠ .filter by decide)]
    cases empty : request.arrangement.order.isEmpty <;> simp [empty] at orderings ⊢ <;> omega

theorem count_laterKeys :
    (requests.flatMap calls).count .thenBy + (requests.flatMap calls).count .thenByDescending =
      (requests.map fun request => request.arrangement.order.length - 1).sum := by
  induction requests with
  | nil => rfl
  | cons request rest ih =>
    have orderings := request.arrangement.count_orderings.2
    simp only [List.flatMap_cons, List.count_append, List.map_cons, List.sum_cons, count_calls request
      (show SequenceMethod.thenBy ≠ .filter by decide), count_calls request
      (show SequenceMethod.thenByDescending ≠ .filter by decide)]
    omega

theorem count_conversions {method : SequenceMethod}
    (other : method ∈ [SequenceMethod.select, .toList, .toArray, .asQueryable]) :
    (requests.flatMap calls).count method = 0 := by
  rw [List.count_flatMap, List.sum_eq_zero_iff_forall_eq_nat, List.forall_mem_map]
  intro request _
  have noFilter : method ≠ .filter := by
    rintro rfl
    simp at other
  rw [Function.comp_apply, count_calls request noFilter]
  exact request.arrangement.count_calls_eq_zero (List.mem_cons_of_mem _ other)

end Counts

theorem fromSource_request {item : ExpandItem} :
    item.request.FromSource mapping ↔ item.Listed mapping.schema ∧ ∀ step ∈ item.target,
      (mapping.mapPath? step.declaringType step.memberName).isSome = true := by
  simp only [FromSource, ExpandItem.request, List.forall_mem_map, ExpandItem.Listed]
  exact forall₂_and

end ExpandRequest

theorem MemberPath.mem_stepsTo {before : MemberPath} {last : PathStep} {step : ExpansionStep}
    (member : step ∈ before.stepsTo last) : ∃ other ∈ before ++ [last],
      step.parentType = other.declaringType ∧ step.memberName = other.memberName := by
  simp only [stepsTo, List.mem_append, List.mem_map, List.mem_singleton] at member ⊢
  rcases member with ⟨other, isOther, rfl⟩ | rfl
  · exact ⟨other, .inl isOther, rfl, rfl⟩
  · exact ⟨last, .inr rfl, rfl, rfl⟩

namespace Forest

variable {mapping : Mapping} {context : BindingContext} {maxExpandDepth : Nat}
  {modelType : String} {clause : Option Clause} {found : List ExpandItem} {forest : Forest}
  {includes : List Lambda} {tree : IncludeTree} {kind : RefinementKind} {steps : ExpansionSteps}

theorem list_fromSource (built : Forest.build mapping.schema modelType clause context
      maxExpandDepth = .ok forest)
    (included : Include.ofForest mapping.schema modelType forest = .ok includes)
    (made : Mapping.includeTree includes = .ok tree)
    (isFound : Resolver.expandItems ⟨mapping.schema, context, maxExpandDepth⟩ modelType clause =
      .ok found)
    (grows : Forest.GrowsBy found .empty forest) (distinct : ExpandItem.Distinct found)
    (fromSource : ∀ item ∈ found, ∀ kind, item.request.carries kind = true →
      item.request.FromSource mapping)
    (isList : steps ∈ forest.listsOf kind) :
    steps.Passes mapping modelType ∧ tree.Covers steps.names ∧ ∀ step ∈ steps,
      (mapping.mapPath? step.parentType step.memberName).isSome = true := by
  obtain ⟨item, isItem, -, before, last, target, carries_, rfl, passes⟩ :=
    Forest.item_of_list isFound grows isList
  obtain ⟨before', last', target', -, sameCarries⟩ := ExpandItem.steps_request kind isFound isItem
  obtain ⟨rfl, lasts⟩ := List.append_inj' (target.symm.trans target') rfl
  cases lasts
  obtain ⟨listed, mapped⟩ :=
    ExpandRequest.fromSource_request.1 (fromSource item isItem kind (sameCarries.trans carries_))
  refine ⟨passes listed fun last' isLast => mapped last' (List.mem_of_getLast? isLast), ?_, ?_⟩
  · rw [MemberPath.names_stepsTo, ← target]
    exact Forest.covers_target built included made isFound grows distinct isItem listed
  · intro step isStep
    obtain ⟨other, isOther, sameType, sameName⟩ := MemberPath.mem_stepsTo isStep
    rw [sameType, sameName]
    exact mapped other (target ▸ isOther)

theorem refinements_add (built : Forest.build mapping.schema modelType clause context
      maxExpandDepth = .ok forest)
    (included : Include.ofForest mapping.schema modelType forest = .ok includes)
    (made : Mapping.includeTree includes = .ok tree)
    (isFound : Resolver.expandItems ⟨mapping.schema, context, maxExpandDepth⟩ modelType clause =
      .ok found)
    (grows : Forest.GrowsBy found .empty forest) (distinct : ExpandItem.Distinct found)
    (fromSource : ∀ item ∈ found, ∀ kind, item.request.carries kind = true →
      item.request.FromSource mapping)
    {parameters : ProjectionParameters} {fuel depth : Nat} {source body filtered arranged : Expr}
    (readable : source.Readable)
    (constructed : mapping.construct parameters fuel tree modelType source depth = .ok body)
    (filters : Refiner.applyAll ⟨mapping, context⟩ .filter body (forest.listsOf .filter) =
      .ok filtered)
    (arranges : Refiner.applyAll ⟨mapping, context⟩ .arrangement filtered
      (forest.listsOf .arrangement) = .ok arranged) :
    Expr.AddsCalls ((found.map ExpandItem.request).flatMap ExpandRequest.calls) body arranged := by
  have lists (kind : RefinementKind) (steps : ExpansionSteps) (isList : steps ∈ forest.listsOf kind) :=
    list_fromSource built included made isFound grows distinct fromSource isList
  have shaped : Refiner.Shaped ⟨mapping, context⟩ parameters fuel tree .unrefined modelType source
      depth body := Refiner.construct_shaped readable constructed
  obtain ⟨asked, shapedFiltered, -, accepts⟩ := Refiner.filters_shaped
    (fun steps isList => (lists .filter steps isList).1)
    (fun steps isList => (lists .filter steps isList).2.1)
    (ExpansionSteps.listsEndingIn_names _ _) readable shaped filters
  have addsFilters := Refiner.applyAll_adds
    (fun steps isList => (lists .filter steps isList).1)
    (fun steps isList => (lists .filter steps isList).2.1)
    (ExpansionSteps.listsEndingIn_names _ _)
    (fun _ _ name rest _ => Refinements.unrefined_accepts .filter name rest)
    (fun steps isList => (lists .filter steps isList).2.2) readable shaped filters
  have addsArrangements := Refiner.applyAll_adds
    (fun steps isList => (lists .arrangement steps isList).1)
    (fun steps isList => (lists .arrangement steps isList).2.1)
    (ExpansionSteps.listsEndingIn_names _ _) (fun _ _ name rest _ => accepts name rest)
    (fun steps isList => (lists .arrangement steps isList).2.2) readable shapedFiltered arranges
  -- The lists are those of the requests in another order, which no count depends on.
  have some_ : ∀ request ∈ found.map ExpandItem.request, request.path ≠ [] :=
    List.forall_mem_map.2 fun item isItem => ExpandItem.request_path_ne_nil isFound isItem
  have counted (kind : RefinementKind) (method : SequenceMethod) :
      ((forest.listsOf kind).flatMap (ExpansionSteps.calls kind)).count method =
        ((found.map ExpandItem.request).flatMap (·.callsOf kind)).count method := by
    rw [← ExpandRequest.flatMap_calls_steps kind context some_]
    exact ((listsOf_perm kind isFound grows distinct).flatMap_right _).count_eq method
  intro method
  rw [addsFilters.trans addsArrangements method, List.count_append, counted, counted]
  simp only [ExpandRequest.calls, List.count_flatMap, Function.comp_def, List.count_append,
    List.sum_map_add]

end Forest

end QueryProjection
