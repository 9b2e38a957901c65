import QueryProjection.Proofs.Evaluation.ReservedNames
import QueryProjection.Proofs.Expansion.Refinement
import QueryProjection.Proofs.Mapping.Projection
import QueryProjection.Provider.Memory
import QueryProjection.Run.Projection

set_option autoImplicit false

namespace QueryProjection

open Outcome Evaluation

namespace Request

def levels (request : Request) (context : BindingContext) : Outcome (List OrderLevel) := do
  let bound ← Binder.levels ⟨request.mapping.schema, request.model, context⟩ request.options.order
  request.mapping.levelsToSource bound

def passing (request : Request) (context : BindingContext) (sourceType : String)
    (rows : List Value) : Outcome (List Value) :=
  match request.options.filter with
  | none => .ok rows
  | some filter => do
      let predicate ← filter.bind request.mapping.schema request.model context
      let mapped ← request.mapping.predicateToSource predicate sourceType
      itemsWhere (mapped.valueOn rows) rows

theorem filtered_spec {request : Request} {context : BindingContext}
    {sourceType elementType : String} {expr : Expr}
    (applied : request.filtered context sourceType (.allRows elementType) = .ok expr) :
    expr.ScopedIn [] ∧ expr.ConstructFree ∧
      ∀ rows, Yields rows [] expr (request.passing context sourceType rows) := by
  match present : request.options.filter with
  | none =>
    simp only [filtered, present, Except.ok.injEq] at applied
    subst applied
    refine ⟨trivial, trivial, fun rows => ?_⟩
    simp only [passing, present]
    exact Yields.source rows [] _
  | some filter =>
    simp only [filtered, present, bind_eq_ok, pure_eq_ok] at applied
    obtain ⟨predicate, bound, mapped, translated, rfl⟩ := applied
    obtain ⟨same, built⟩ := Filter.bind_eq_ok bound
    obtain ⟨isMapped, -⟩ := Mapping.predicateToSource_eq_ok translated
    obtain ⟨-, closed, free⟩ := Mapping.lambdaToSource_spec (same ▸ built.scopedIn) isMapped
    refine ⟨⟨trivial, Expr.scopedIn_of_closed_lambda closed [], trivial⟩,
      ⟨trivial, free, trivial⟩, fun rows => ?_⟩
    simp only [passing, present, bound, translated, ok_bind]
    exact (Yields.source rows [] _).filter mapped.parameter mapped.body _

end Request

namespace FilteredRequest

variable {filtered : FilteredRequest}

def selector (filtered : FilteredRequest) : Outcome Lambda := do
  let request := filtered.request
  let mapping := request.mapping
  let forest ← Forest.build mapping.schema request.model request.options.clause
    filtered.context request.settings.limits.maxExpandDepth
  let includes ← Include.ofForest mapping.schema request.model forest
  let projection ← mapping.project filtered.sourceType request.model includes
    request.settings.parameters
  return ⟨projection.parameter,
    ← filtered.refined (ExpansionSteps.ofForest forest) projection.body⟩

def answer (filtered : FilteredRequest) (rows : List Value) : Outcome (List Value) := do
  let request := filtered.request
  let levels ← request.levels filtered.context
  let selector ← filtered.selector
  let passing ← request.passing filtered.context filtered.sourceType rows
  let arranged ← arrangeItems (levels.map (OrderLevel.sortKey rows [])) request.options.skip
    request.take passing
  mapItems (selector.valueOn rows) arranged

theorem arranged_eq_ok {expr : Expr} (arranged : filtered.arranged = .ok expr) :
    ∃ levels, filtered.request.levels filtered.context = .ok levels ∧
      Arrangement.Fits filtered.request.options.skip filtered.request.take ∧
      OrderLevel.AreKeys levels ∧ (∀ level ∈ levels, level.key.body.ConstructFree) ∧
      Expr.Arranges levels filtered.request.options.skip filtered.request.take
        filtered.query.expression expr := by
  have apart : elementName ≠ "q" := by decide
  simp only [FilteredRequest.arranged] at arranged
  split at arranged
  next empty =>
    simp only [Except.ok.injEq] at arranged
    subst arranged
    simp only [Request.arrangement, Arrangement.isEmpty, Bool.and_eq_true, List.isEmpty_iff,
      Option.isNone_iff_eq_none] at empty
    -- Nothing is asked for, so the query stays as it is.
    obtain ⟨⟨unordered, noSkip⟩, noTop⟩ := empty
    refine ⟨[], by simp [Request.levels, unordered, Binder.levels, Mapping.levelsToSource], ?_,
      ⟨by simp [OrderLevel.Closed], by simp⟩, by simp, ?_⟩
    · simp [Arrangement.Fits, noSkip, noTop]
    · rw [noSkip, noTop]
      exact ⟨.nil _ _, .none _, .none _⟩
  next =>
    simp only [bind_eq_ok, pure_eq_ok, Arrangement.applyTo_eq_ok] at arranged
    obtain ⟨_, ⟨bound, areBound, fits, rfl⟩, transformation, translated, rfl⟩ := arranged
    obtain ⟨mapped, areMapped, rfl⟩ := (Mapping.lambdaToSource_arrangeCalls _ _ _ _).1 translated
    obtain ⟨keys, free⟩ := Mapping.levelsToSource_spec (Binder.levels_areKeys areBound) areMapped
    refine ⟨mapped, ?_, fits, keys, free, Expr.arranges_applyTo keys apart _⟩
    simp only [Request.levels]
    rw [show filtered.request.options.order = filtered.request.arrangement.order from rfl, areBound]
    exact areMapped

theorem arranged_of_levels {levels : List OrderLevel}
    (areLevels : filtered.request.levels filtered.context = .ok levels)
    (fits : Arrangement.Fits filtered.request.options.skip filtered.request.take) :
    ∃ expr, filtered.arranged = .ok expr := by
  simp only [FilteredRequest.arranged]
  split
  next => exact ⟨_, rfl⟩
  next =>
    obtain ⟨bound, areBound, areMapped⟩ := bind_eq_ok.1 areLevels
    have body := (Arrangement.applyTo_eq_ok filtered.request.arrangement
      ⟨filtered.request.mapping.schema, filtered.request.model, filtered.context⟩
      (.parameter ⟨"q", .collection .queryable (.named filtered.request.model)⟩)).2
      ⟨bound, areBound, fits, rfl⟩
    have translated := (Mapping.lambdaToSource_arrangeCalls
      ⟨"q", .collection .queryable (.named filtered.request.model)⟩ bound
      filtered.request.arrangement.skip filtered.request.arrangement.top).2 ⟨levels, areMapped, rfl⟩
    simp only [body, ok_bind, translated]
    exact ⟨_, rfl⟩

theorem refined_select (filtered : FilteredRequest) {sequence : Expr} (free : sequence.ConstructFree) (param : Parameter)
    (body : Expr) (ty : DataType) (lists : List ExpansionSteps) :
    filtered.refined lists (.call .select [sequence, .lambda param body] ty) = (do
      let refined ← filtered.refined lists body
      return .call .select [sequence, .lambda param refined] ty) := by
  simp only [FilteredRequest.refined, Refiner.applyAll_select free]
  cases Refiner.applyAll _ .filter body _ with
  | error cause => rfl
  | ok refined => exact Refiner.applyAll_select free param refined ty _

theorem projected_eq_ok (free : filtered.query.expression.ConstructFree) {query : Query}
    (projected : filtered.projected = .ok query) :
    ∃ expr selector ty, filtered.arranged = .ok expr ∧ filtered.selector = .ok selector ∧
      query = { filtered.query with
        expression := (Expr.call .select [expr, .ofLambda selector] ty).withoutReservedNames } := by
  simp only [FilteredRequest.projected, bind_eq_ok, pure_eq_ok] at projected
  obtain ⟨forest, built, includes, included, expr, arranged, projection, projects, refined, refines,
    rfl⟩ := projected
  obtain ⟨levels, -, -, -, freeKeys, arranges⟩ := arranged_eq_ok arranged
  have same := refined_select filtered (arranges.constructFree freeKeys free) projection.parameter
    projection.body (Expr.callType .select [expr, .ofLambda projection])
    (ExpansionSteps.ofForest forest)
  obtain ⟨body, isBody, isRefined⟩ := bind_eq_ok.1 (same ▸ refines)
  rw [pure_eq_ok] at isRefined
  subst isRefined
  refine ⟨expr, ⟨projection.parameter, body⟩, _, arranged, ?_, rfl⟩
  simp only [FilteredRequest.selector, built, included, projects, isBody, ok_bind]
  rfl

theorem projected_of_selector (free : filtered.query.expression.ConstructFree) {expr : Expr}
    {selector : Lambda} (arranged : filtered.arranged = .ok expr)
    (selects : filtered.selector = .ok selector) : ∃ query, filtered.projected = .ok query := by
  simp only [FilteredRequest.selector, bind_eq_ok, pure_eq_ok] at selects
  obtain ⟨forest, built, includes, included, projection, projects, body, isBody, rfl⟩ := selects
  obtain ⟨levels, -, -, -, freeKeys, arranges⟩ := arranged_eq_ok arranged
  have same := refined_select filtered (arranges.constructFree freeKeys free) projection.parameter
    projection.body (Expr.callType .select [expr, .ofLambda projection])
    (ExpansionSteps.ofForest forest)
  rw [isBody] at same
  simp only [FilteredRequest.projected, built, included, arranged, projects, ok_bind, Expr.selected,
    Expr.apply]
  exact ⟨_, by rw [Expr.ofLambda] at same ⊢; rw [same]; rfl⟩

theorem selector_closed {selector : Lambda} (selects : filtered.selector = .ok selector) :
    selector.body.ScopedIn [selector.parameter] := by
  simp only [FilteredRequest.selector, bind_eq_ok, pure_eq_ok] at selects
  obtain ⟨forest, -, includes, -, projection, projects, body, refines, rfl⟩ := selects
  obtain ⟨same, inScope⟩ := Mapping.project_spec projects
  rw [← same] at inScope
  simp only [FilteredRequest.refined, bind_eq_ok] at refines
  obtain ⟨middle, first, second⟩ := refines
  exact Refiner.applyAll_scopedIn (Refiner.applyAll_scopedIn inScope first) second

def Applied (filtered : FilteredRequest) : Prop :=
  ∃ elementType, filtered.request.filtered filtered.context filtered.sourceType
    (.allRows elementType) = .ok filtered.query.expression

theorem projected_execute (applied : filtered.Applied) (memory : MemoryRows)
    (fits : Arrangement.Fits filtered.request.options.skip filtered.request.take) :
    Agree (filtered.projected >>= fun query => memory.execute query.expression)
      (filtered.answer memory.rows) := by
  obtain ⟨elementType, applied⟩ := applied
  obtain ⟨inScope, free, yields⟩ := Request.filtered_spec applied
  cases areLevels : filtered.request.levels filtered.context with
  | error cause =>
    simp only [answer, areLevels, error_bind]
    cases made : filtered.projected with
    | error cause' => exact .failed _ _
    | ok query =>
      -- The query cannot be made either: it needs the levels.
      obtain ⟨expr, selector, ty, arranged, -, -⟩ := projected_eq_ok free made
      obtain ⟨levels, found, -⟩ := arranged_eq_ok arranged
      rw [areLevels] at found
      simp at found
  | ok levels =>
    obtain ⟨expr, arranged⟩ := arranged_of_levels areLevels fits
    obtain ⟨levels', found, -, keys, -, arranges⟩ := arranged_eq_ok arranged
    cases areLevels.symm.trans found
    cases selects : filtered.selector with
    | error cause =>
      simp only [answer, areLevels, selects, error_bind, ok_bind]
      cases made : filtered.projected with
      | error cause' => exact .failed _ _
      | ok query =>
        obtain ⟨-, selector, -, -, found, -⟩ := projected_eq_ok free made
        rw [selects] at found
        simp at found
    | ok selector =>
      obtain ⟨query, made⟩ := projected_of_selector free arranged selects
      obtain ⟨expr', selector', ty, arranged', selects', rfl⟩ := projected_eq_ok free made
      cases arranged.symm.trans arranged'
      cases selects.symm.trans selects'
      have inScopeSelect : (Expr.call .select [expr, .ofLambda selector] ty).ScopedIn [] :=
        ⟨arranges.scopedIn [] keys.closed inScope,
          Expr.scopedIn_of_closed_lambda (selector_closed selects) [], trivial⟩
      have yieldsRows := ((yields memory.rows).arranged arranges).select selector.parameter
        selector.body ty
      simp only [made, ok_bind, answer, areLevels, selects, MemoryRows.execute]
      refine (sequence_withoutReservedNames memory.rows inScopeSelect).symm.trans ?_
      refine yieldsRows.sequence.trans (.of_eq ?_)
      cases filtered.request.passing filtered.context filtered.sourceType memory.rows <;> rfl

theorem count_filtered (applied : filtered.Applied) (memory : MemoryRows) :
    Agree (memory.count filtered.query.expression) (do
      let passing ← filtered.request.passing filtered.context filtered.sourceType memory.rows
      return passing.length) := by
  obtain ⟨elementType, applied⟩ := applied
  obtain ⟨-, -, yields⟩ := Request.filtered_spec applied
  exact Agree.bind (yields memory.rows).sequence fun passing => .refl _

theorem fits_of_projected (applied : filtered.Applied) {query : Query}
    (projected : filtered.projected = .ok query) :
    Arrangement.Fits filtered.request.options.skip filtered.request.take := by
  obtain ⟨elementType, applied⟩ := applied
  obtain ⟨-, free, -⟩ := Request.filtered_spec applied
  obtain ⟨expr, -, -, arranged, -, -⟩ := projected_eq_ok free projected
  obtain ⟨-, -, fits, -⟩ := arranged_eq_ok arranged
  exact fits

end FilteredRequest

end QueryProjection
