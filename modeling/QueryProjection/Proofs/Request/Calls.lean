import QueryProjection.Proofs.Expansion.RequestCalls
import QueryProjection.Proofs.Request.Response

set_option autoImplicit false

namespace QueryProjection

open Outcome

theorem Request.filtered_adds {request : Request} {context : BindingContext} {sourceType : String}
    {rows expr : Expr} (applied : request.filtered context sourceType rows = .ok expr) :
    Expr.AddsCalls (request.options.filter.toList.map fun _ => .filter) rows expr := by
  match present : request.options.filter with
  | none =>
    simp only [Request.filtered, present, Except.ok.injEq] at applied
    exact applied ▸ .refl rows
  | some filter =>
    simp only [Request.filtered, present, bind_eq_ok, pure_eq_ok] at applied
    obtain ⟨predicate, bound, mapped, translated, rfl⟩ := applied
    obtain ⟨isMapped, -⟩ := Mapping.predicateToSource_eq_ok translated
    have free := Mapping.lambdaToSource_callFree (Filter.bind_eq_ok bound).2.callFree isMapped
    intro method
    simp [Expr.filteredBy, Expr.apply, Expr.ofLambda, free method]

namespace FilteredRequest

variable {filtered : FilteredRequest}

theorem arranged_adds {expr : Expr} (arranged : filtered.arranged = .ok expr) :
    Expr.AddsCalls filtered.request.arrangement.calls filtered.query.expression expr := by
  obtain ⟨levels, areLevels, -, -, -, arranges⟩ := arranged_eq_ok arranged
  obtain ⟨bound, areBound, mapped⟩ := bind_eq_ok.1 areLevels
  obtain ⟨free, same⟩ := Mapping.levelsToSource_callFree areBound mapped
  exact fun method => arranges.callsTo method free same

def expandRequests (filtered : FilteredRequest) : Outcome (List ExpandRequest) :=
  let request := filtered.request
  Resolver.requests ⟨request.mapping.schema, filtered.context, request.settings.limits.maxExpandDepth⟩
    request.model request.options.clause

def projection (filtered : FilteredRequest) : Outcome Lambda := do
  let request := filtered.request
  let mapping := request.mapping
  let forest ← Forest.build mapping.schema request.model request.options.clause
    filtered.context request.settings.limits.maxExpandDepth
  let includes ← Include.ofForest mapping.schema request.model forest
  mapping.project filtered.sourceType request.model includes request.settings.parameters

theorem projection_callsTo {projection : Lambda} {method : SequenceMethod}
    (projects : filtered.projection = .ok projection)
    (other : method ∉ [SequenceMethod.select, .toList, .toArray, .asQueryable]) :
    projection.body.callsTo method = 0 := by
  simp only [FilteredRequest.projection, Mapping.project, bind_eq_ok, pure_eq_ok] at projects
  obtain ⟨_, _, _, _, _, _, _, _, body, constructed, rfl⟩ := projects
  exact Mapping.construct_callsTo other (fun _ => rfl) constructed

theorem selector_adds {selector : Lambda} (selects : filtered.selector = .ok selector) :
    ∃ requests projection, filtered.expandRequests = .ok requests ∧
      filtered.projection = .ok projection ∧
      ((requests.map fun request => request.path.names).Nodup →
        (∀ request ∈ requests, ∀ kind, request.carries kind = true →
          request.FromSource filtered.request.mapping) →
        Expr.AddsCalls (requests.flatMap ExpandRequest.calls) projection.body selector.body) := by
  simp only [FilteredRequest.selector, bind_eq_ok, pure_eq_ok] at selects
  obtain ⟨forest, built, includes, included, projection, projects, body, refines, rfl⟩ := selects
  obtain ⟨found, isFound, grows⟩ := Forest.build_grows built
  obtain ⟨requests, areRequests, perm⟩ := Resolver.requests_of_expandItems isFound
  refine ⟨requests, projection, areRequests, ?_, fun different fromSource => ?_⟩
  · simp only [FilteredRequest.projection, built, included, ok_bind, projects]
  · have distinct := ExpandItem.distinct_of_requests perm different
    have fromSource : ∀ item ∈ found, ∀ kind, item.request.carries kind = true →
        item.request.FromSource filtered.request.mapping :=
      fun item isItem => fromSource _ (perm.mem_iff.1 (List.mem_map_of_mem isItem))
    simp only [Mapping.project, bind_eq_ok, pure_eq_ok] at projects
    obtain ⟨-, -, tree, made, body, constructed, rfl⟩ := projects
    obtain ⟨middle, filters, arranges⟩ := bind_eq_ok.1 refines
    have adds := Forest.refinements_add built included made isFound grows distinct fromSource
      (Expr.readable_parameter _) constructed filters arranges
    intro method
    rw [adds method, (perm.flatMap_right _).count_eq method]

end FilteredRequest

namespace Run

variable {α β : Type} {state after : RunState}

theorem bind_eq_ok {run : Run α} {next : α → Run β} {result : β} :
    (run >>= next).run state = .ok result after ↔
      ∃ value between, run.run state = .ok value between ∧
        (next value).run between = .ok result after := by
  simp only [EStateM.run, Bind.bind, EStateM.bind]
  cases run state <;> simp

theorem ofOutcome_eq_ok {outcome : Outcome α} {value : α} :
    (ofOutcome outcome).run state = .ok value after ↔ outcome = .ok value ∧ state = after := by
  cases outcome with
  | ok other => simp [ofOutcome, EStateM.run, pure, EStateM.pure]
  | error cause =>
    have refused : (ofOutcome (.error cause : Outcome α)).run state =
        .error (.refused cause) state := rfl
    rw [refused]
    simp

def endsWith (run : Run α) (state : RunState) (test : α → Bool) : Bool :=
  match run.run state with
  | .ok value _ => test value
  | .error _ _ => false

theorem exists_of_endsWith {run : Run α} {state : RunState} {test : α → Bool}
    (ends : run.endsWith state test = true) :
    ∃ value after, run.run state = .ok value after ∧ test value = true := by
  unfold endsWith at ends
  split at ends
  next value after ended => exact ⟨value, after, ended, ends⟩
  next => contradiction

end Run

namespace Request

variable {request : Request}

theorem projected_of_project {query projected : Query} {state after : RunState}
    (ran : (request.project query).run state = .ok projected after) :
    ∃ filtered, request.applyFilter query = .ok filtered ∧ filtered.projected = .ok projected := by
  simp only [project, Run.bind_eq_ok, Run.ofOutcome_eq_ok] at ran
  obtain ⟨filtered, _, ⟨applied, -⟩, count, between, -, concluded⟩ := ran
  refine ⟨filtered, applied, ?_⟩
  have made {start : RunState} (ran : (do
      let query ← Run.ofOutcome filtered.projected
      Run.record fun feature =>
        feature.withNextPage filtered.request.options.uri (filtered.request.nextPage? count)
      return query : Run Query).run start = .ok projected after) :
      filtered.projected = .ok projected := by
    simp only [Run.bind_eq_ok, Run.ofOutcome_eq_ok] at ran
    obtain ⟨query, _, ⟨made, -⟩, _, _, -, returned⟩ := ran
    cases returned
    exact made
  unfold conclude at concluded
  by_cases counts : filtered.request.options.count = true
  · rw [if_pos counts] at concluded
    obtain ⟨_, _, -, finished⟩ := Run.bind_eq_ok.1 concluded
    exact made finished
  · rw [if_neg counts] at concluded
    exact made concluded

theorem expandRequests_perm {provider : Provider} {elementType : String} {filtered : FilteredRequest}
    {requests : List ExpandRequest} {found : List ExpandItem}
    (applied : request.applyFilter (.ofProvider provider elementType) = .ok filtered)
    (areRequests : filtered.expandRequests = .ok requests)
    (isFound : Resolver.expandItems ⟨request.mapping.schema,
      request.settings.bindingContext provider.guardsNulls, request.settings.limits.maxExpandDepth⟩
        request.model request.options.clause = .ok found) :
    (found.map ExpandItem.request).Perm requests := by
  obtain ⟨-, -, same, isContext, -⟩ := applyFilter_eq_ok applied
  obtain ⟨requests', areRequests', perm⟩ := Resolver.requests_of_expandItems isFound
  rw [FilteredRequest.expandRequests, isContext, same] at areRequests
  cases areRequests.symm.trans areRequests'
  exact perm

def asked (request : Request) : ExpandRequest :=
  ⟨[], request.options.filter, request.arrangement⟩

theorem projected_callsTo {provider : Provider} {elementType : String} {filtered : FilteredRequest}
    {query : Query} (applied : request.applyFilter (.ofProvider provider elementType) = .ok filtered)
    (projected : filtered.projected = .ok query) :
    ∃ requests projection, filtered.expandRequests = .ok requests ∧
      filtered.projection = .ok projection ∧
      ((requests.map fun request => request.path.names).Nodup →
        (∀ asked ∈ requests, ∀ kind, asked.carries kind = true →
          asked.FromSource request.mapping) →
        ∀ method, query.expression.callsTo method = projection.body.callsTo method +
          ((request.asked :: requests).flatMap ExpandRequest.calls).count method +
            [SequenceMethod.select].count method) := by
  obtain ⟨-, -, rfl, -, -, expression, isFiltered, isQuery⟩ := applyFilter_eq_ok applied
  have isExpression : filtered.query.expression = expression := by rw [isQuery]
  have free : filtered.query.expression.ConstructFree := by
    rw [isExpression]
    exact (filtered_spec isFiltered).2.1
  obtain ⟨expr, selector, ty, arranged, selects, rfl⟩ :=
    FilteredRequest.projected_eq_ok free projected
  obtain ⟨requests, projection, areRequests, projects, adds⟩ :=
    FilteredRequest.selector_adds selects
  refine ⟨requests, projection, areRequests, projects, fun different fromSource method => ?_⟩
  have rows : filtered.query.expression.callsTo method =
      (filtered.request.options.filter.toList.map fun _ => SequenceMethod.filter).count method := by
    rw [isExpression, filtered_adds isFiltered method]
    simp [Query.ofProvider, Expr.allRows]
  simp only [Expr.withoutReservedNames, Expr.callsTo_rename, Expr.callsTo_call, Expr.ofLambda,
    List.map_cons, List.map_nil, List.sum_cons, List.sum_nil, Expr.callsTo_lambda,
    FilteredRequest.arranged_adds arranged method, adds different fromSource method, rows,
    List.flatMap_cons, ExpandRequest.calls, ExpandRequest.callsOf, asked, List.count_append]
  omega

end Request

/-- Every option that is present is one call, and nothing else is called but what the projection
calls. -/
structure Request.CallsOnce (request : Request) (requests : List ExpandRequest)
    (projection query : Expr) : Prop where
  filters : query.callsTo .filter =
    (if request.options.filter.isSome then 1 else 0) + requests.countP (·.filter.isSome)
  orders : query.callsTo .orderBy + query.callsTo .orderByDescending =
    (if request.options.order.isEmpty then 0 else 1) +
      requests.countP fun asked => !asked.arrangement.order.isEmpty
  laterKeys : query.callsTo .thenBy + query.callsTo .thenByDescending =
    (request.options.order.length - 1) +
      (requests.map fun asked => asked.arrangement.order.length - 1).sum
  skips : query.callsTo .skip =
    (if request.options.skip.isSome then 1 else 0) + requests.countP (·.arrangement.skip.isSome)
  takes : query.callsTo .take =
    (if request.options.top.isSome || request.settings.pageSize.isSome then 1 else 0) +
      requests.countP (·.arrangement.top.isSome)
  selections : query.callsTo .select = 1 + projection.callsTo .select
  conversions : ∀ method ∈ [SequenceMethod.toList, .toArray, .asQueryable],
    query.callsTo method = projection.callsTo method

namespace Request

variable {request : Request}

theorem isSome_take (request : Request) :
    request.take.isSome = (request.options.top.isSome || request.settings.pageSize.isSome) := by
  unfold take
  cases request.options.top <;> cases request.settings.pageSize <;> rfl

/-- A run that ends leaves a query in which every option of the request and of its expansions is
called once. -/
theorem project_callsOnce {provider : Provider} {elementType : String} {before after : RunState}
    {query : Query}
    (ran : (request.project (.ofProvider provider elementType)).run before = .ok query after) :
    ∃ filtered requests projection,
      request.applyFilter (.ofProvider provider elementType) = .ok filtered ∧
      filtered.expandRequests = .ok requests ∧ filtered.projection = .ok projection ∧
      ((requests.map fun asked => asked.path.names).Nodup →
        (∀ asked ∈ requests, ∀ kind, asked.carries kind = true → asked.FromSource request.mapping) →
        request.CallsOnce requests projection.body query.expression) := by
  obtain ⟨filtered, applied, projected⟩ := projected_of_project ran
  obtain ⟨requests, projection, areRequests, projects, counts⟩ := projected_callsTo applied projected
  refine ⟨filtered, requests, projection, applied, areRequests, projects, ?_⟩
  intro different fromSource
  have counts := counts different fromSource
  have uncalled (method : SequenceMethod)
      (other : method ∉ [SequenceMethod.select, .toList, .toArray, .asQueryable]) :
      query.expression.callsTo method =
        ((request.asked :: requests).flatMap ExpandRequest.calls).count method := by
    rw [counts, FilteredRequest.projection_callsTo projects other, Nat.zero_add]
    have notSelect : method ≠ .select := fun same => other (same ▸ List.mem_cons_self)
    simp [notSelect.symm]
  constructor
  · rw [uncalled .filter (by decide), ExpandRequest.count_filters, List.countP_cons, Nat.add_comm]
    rfl
  · rw [uncalled .orderBy (by decide), uncalled .orderByDescending (by decide),
      ExpandRequest.count_orders, List.countP_cons, Nat.add_comm]
    cases empty : request.options.order.isEmpty <;> simp [asked, arrangement, empty]
  · rw [uncalled .thenBy (by decide), uncalled .thenByDescending (by decide),
      ExpandRequest.count_laterKeys, List.map_cons, List.sum_cons]
    rfl
  · rw [uncalled .skip (by decide), ExpandRequest.count_skips, List.countP_cons, Nat.add_comm]
    rfl
  · rw [uncalled .take (by decide), ExpandRequest.count_takes, List.countP_cons, Nat.add_comm,
      ← isSome_take]
    rfl
  · rw [counts, ExpandRequest.count_conversions _ (by decide)]
    simp [Nat.add_comm]
  · intro method conversion
    rw [counts, ExpandRequest.count_conversions _ (List.mem_cons_of_mem _ conversion)]
    have notSelect : method ≠ .select := by
      rintro rfl
      simp at conversion
    simp [notSelect.symm]

def bestPlayerPage : Request where
  mapping := playerMapping
  options := { RequestOptions.ofModel "Team" with
    filter := some (.compare (.member "Name") .ne (.literal .null))
    order := [⟨"Name", .ascending⟩]
    clause := bestPlayer }
  settings := { Settings.standard with
    nullPropagation := some true
    configuredPageSize := some 10 }

theorem check_bestPlayerPage :
    bestPlayerPage.settings.limits.check bestPlayerPage.options = .ok () := by
  simp [bestPlayerPage, bestPlayer, scoreAbove, RequestOptions.ofModel, Settings.standard,
    Limits.standard, Limits.check, Limits.checkLevel, Limits.checkPresent, Limits.checkTop,
    Limits.checkFilter, Limits.checkOrderCount, Limits.checkItems, Limits.checkExpandDepth,
    Filter.size, Clause.depth, Clause.itemsDepth]

theorem project_callsOnce_bestPlayer :
    ∃ query after, (bestPlayerPage.project (.ofProvider (MemoryRows.ofRows oneClub none).provider
        "Club")).run ⟨.idle, .fresh, []⟩ = .ok query after ∧
      query.expression.callsTo .filter = 3 ∧ query.expression.callsTo .take = 2 := by
  have ends : Run.endsWith (bestPlayerPage.project (.ofProvider (MemoryRows.ofRows oneClub
      none).provider "Club")) ⟨.idle, .fresh, []⟩ (fun _ => true) = true := by
    simp only [project, applyFilter, check_bestPlayerPage, ok_bind]
    decide +kernel
  obtain ⟨query, after, ran, -⟩ := Run.exists_of_endsWith ends
  obtain ⟨filtered, requests, projection, applied, areRequests, -, callsOnce⟩ :=
    project_callsOnce ran
  have perm := expandRequests_perm applied areRequests expandItems_bestPlayer
  have different : (requests.map fun asked => asked.path.names).Nodup :=
    (perm.map _).nodup_iff.1 (by decide)
  have mapped : ∀ item ∈ bestPlayerItems, ∀ step ∈ item.target,
      (playerMapping.mapPath? step.declaringType step.memberName).isSome = true := by decide
  have fromSource : ∀ asked ∈ requests, ∀ kind, asked.carries kind = true →
      asked.FromSource playerMapping := by
    intro asked isAsked _ _
    obtain ⟨item, isItem, rfl⟩ := List.mem_map.1 (perm.mem_iff.2 isAsked)
    exact ExpandRequest.fromSource_request.2 ⟨listed_bestPlayer item isItem, mapped item isItem⟩
  have once := callsOnce different fromSource
  refine ⟨query, after, ran, ?_, ?_⟩
  · rw [once.filters, ← perm.countP_eq]
    rfl
  · rw [once.takes, ← perm.countP_eq]
    rfl

/-- Every run leaves a query with the calls of its options, provided that its expansions meet a
condition. -/
def CallsOnceWhen (condition : Mapping → ExpandRequest → Prop) : Prop :=
  ∀ (request : Request) (provider : Provider) (elementType : String) (before after : RunState)
      (query : Query) (filtered : FilteredRequest) (requests : List ExpandRequest)
      (projection : Lambda),
    (request.project (.ofProvider provider elementType)).run before = .ok query after →
    request.applyFilter (.ofProvider provider elementType) = .ok filtered →
    filtered.expandRequests = .ok requests → filtered.projection = .ok projection →
    (requests.map fun asked => asked.path.names).Nodup →
    (∀ asked ∈ requests, condition request.mapping asked) →
    request.CallsOnce requests projection.body query.expression

theorem not_callsOnceWhen {condition : Mapping → ExpandRequest → Prop} {provider : Provider}
    {elementType : String} {state : RunState} {found : List ExpandItem}
    (isFound : Resolver.expandItems ⟨request.mapping.schema,
      request.settings.bindingContext provider.guardsNulls, request.settings.limits.maxExpandDepth⟩
        request.model request.options.clause = .ok found)
    (different : ((found.map ExpandItem.request).map fun asked => asked.path.names).Nodup)
    (met : ∀ asked ∈ found.map ExpandItem.request, condition request.mapping asked)
    (filters : 0 < (found.map ExpandItem.request).countP (·.filter.isSome))
    (lost : Run.endsWith (request.project (.ofProvider provider elementType)) state
      (fun query => query.expression.callsTo .filter == 0) = true) :
    ¬ CallsOnceWhen condition := by
  intro always
  obtain ⟨query, after, ran, none_⟩ := Run.exists_of_endsWith lost
  obtain ⟨filtered, applied, projected⟩ := projected_of_project ran
  obtain ⟨requests, projection, areRequests, projects, -⟩ := projected_callsTo applied projected
  have perm := expandRequests_perm applied areRequests isFound
  have once := always _ _ _ _ _ _ _ _ _ ran applied areRequests projects
    ((perm.map _).nodup_iff.1 different) (fun asked isAsked => met asked (perm.mem_iff.2 isAsked))
  have counted := once.filters
  rw [← perm.countP_eq, beq_iff_eq.1 none_] at counted
  omega

def teamsAboveOne (mapping : Mapping) (segments : List String) : Request where
  mapping := mapping
  options := { RequestOptions.ofModel "Team" with
    clause := some ⟨false, [.expand segments none
      (some (.compare (.member "Points") .gt (.literal (.number ⟨1, 0⟩)))) ⟨[], none, none⟩]⟩ }
  settings := { Settings.standard with nullPropagation := some true }

theorem check_teamsAboveOne (mapping : Mapping) (segments : List String) (few : segments.length ≤ 4) :
    (teamsAboveOne mapping segments).settings.limits.check (teamsAboveOne mapping segments).options =
      .ok () := by
  simp [teamsAboveOne, RequestOptions.ofModel, Settings.standard, Limits.standard, Limits.check,
    Limits.checkLevel, Limits.checkPresent, Limits.checkFilter, Limits.checkOrderCount,
    Limits.checkItems, Limits.checkExpandDepth, Filter.size, Clause.depth, Clause.itemsDepth,
    Nat.not_lt.2 few]

def hallMapping : Mapping where
  schema := ⟨[
    ⟨"Club", .entity, none, [⟨"Name", .scalar .string⟩]⟩,
    ⟨"Team", .entity, none, [⟨"Home", .named "Hall"⟩]⟩,
    ⟨"Hall", .complex, none, [⟨"Members", .collection .list (.named "Player")⟩]⟩,
    ⟨"Player", .entity, none, [⟨"Points", .scalar .int32⟩]⟩]⟩
  maps := [("Team", ⟨"Club", [("Home", .parameter "home")]⟩)]

def hallMembersAboveOneItem : ExpandItem :=
  ⟨[⟨"Home", "Team", .named "Hall", .complex, false, none, none⟩,
    ⟨"Members", "Hall", .collection .list (.named "Player"), .collection, true,
      some ⟨.compare (.member "Points") .gt (.literal (.number ⟨1, 0⟩)), "Player", ⟨true, none⟩⟩,
      none⟩], false⟩

/-- The filter is lost when another declaration takes the place of the expanded member, and when a
member before it is a projection parameter. -/
theorem not_project_callsOnce_otherwise :
    ¬ CallsOnceWhen (fun mapping asked => ∀ step ∈ asked.path,
        (mapping.mapPath? step.declaringType step.memberName).isSome = true) ∧
      ¬ CallsOnceWhen (fun mapping asked =>
        (∀ step ∈ asked.path, step.ListedOn mapping.schema step.declaringType) ∧
          ∀ last ∈ asked.path.getLast?,
            (mapping.mapPath? last.declaringType last.memberName).isSome = true) := by
  constructor
  · refine @not_callsOnceWhen (teamsAboveOne twofoldMapping ["Members"]) _
      (MemoryRows.ofRows [] none).provider "Club" ⟨.idle, .fresh, []⟩ _
      expandItems_membersAboveOne (by decide) (by decide) (by decide) ?_
    simp only [project, applyFilter, check_teamsAboveOne twofoldMapping ["Members"] (by decide),
      ok_bind]
    decide +kernel
  · have isFound : Resolver.expandItems ⟨hallMapping.schema, ⟨true, none⟩, 4⟩ "Team"
        (teamsAboveOne hallMapping ["Home", "Members"]).options.clause =
          .ok [hallMembersAboveOneItem] := by
      simp only [teamsAboveOne, Resolver.expandItems, Resolver.expandsMet, Resolver.selectsMet]
      rfl
    have home : hallMapping.schema.Lists "Team" ⟨"Home", .named "Hall"⟩ :=
      ⟨[⟨"Home", .named "Hall"⟩], rfl, by simp⟩
    have members : hallMapping.schema.Lists "Hall"
        ⟨"Members", .collection .list (.named "Player")⟩ :=
      ⟨[⟨"Members", .collection .list (.named "Player")⟩], rfl, by simp⟩
    refine @not_callsOnceWhen (teamsAboveOne hallMapping ["Home", "Members"]) _
      (MemoryRows.ofRows [] none).provider "Club" ⟨.idle, .fresh, []⟩ _
      isFound (by decide) ?_ (by decide) ?_
    · refine List.forall_mem_singleton.2 ⟨?_, by decide⟩
      exact List.forall_mem_cons.2 ⟨⟨rfl, home⟩, List.forall_mem_singleton.2 ⟨rfl, members⟩⟩
    · simp only [project, applyFilter,
        check_teamsAboveOne hallMapping ["Home", "Members"] (by decide), ok_bind]
      decide +kernel

end Request

end QueryProjection
