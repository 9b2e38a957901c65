import QueryProjection.Proofs.Expansion.Items

set_option autoImplicit false

namespace QueryProjection

open Outcome

/-- An expand item with the members that lead to it from the root. No step has options. -/
structure ExpandRequest where
  path : MemberPath
  filter : Option Filter
  arrangement : Arrangement

namespace ExpandRequest

def carries (request : ExpandRequest) : RefinementKind → Bool
  | .filter => request.filter.isSome
  | .arrangement => !request.arrangement.isEmpty

def lastStep (context : BindingContext) (request : ExpandRequest) (last : PathStep) :
    ExpansionStep :=
  { ExpansionStep.ofPathStep last with
    filter := do
      let element ← last.element?
      let filter ← request.filter
      return ⟨filter, element, context⟩
    arrangement := if request.arrangement.isEmpty then none else some request.arrangement }

def steps (context : BindingContext) (request : ExpandRequest) : ExpansionSteps :=
  request.path.dropLast.map ExpansionStep.ofPathStep ++
    request.path.getLast?.toList.map (request.lastStep context)

end ExpandRequest

namespace Resolver

mutual

def requestsOf (resolver : Resolver) (typeName : String) (path : MemberPath) :
    ClauseItem → Outcome (List ExpandRequest)
  | .expand segments nested filter arrangement => do
      let target ← resolver.follow path typeName segments
      let inner ← match nested with
        | none => .ok []
        | some ⟨_, items⟩ =>
            match target.getLast?.bind PathStep.element? with
            | none => .ok []
            | some element => requestsAmong resolver element target items
      return ⟨target, filter, arrangement⟩ :: inner
  | .path segments nested => do
      let (target, complex) ← resolver.selectTarget path typeName segments
      match nested with
      | none => .ok []
      | some ⟨_, items⟩ =>
          match complex with
          | none => .ok []
          | some element => requestsAmong resolver element target items
  | _ => .ok []

def requestsAmong (resolver : Resolver) (typeName : String) (path : MemberPath) :
    List ClauseItem → Outcome (List ExpandRequest)
  | [] => .ok []
  | item :: rest => do
      let requests ← requestsOf resolver typeName path item
      return requests ++ (← requestsAmong resolver typeName path rest)

end

def requests (resolver : Resolver) (rootType : String) : Option Clause → Outcome (List ExpandRequest)
  | none => .ok []
  | some ⟨_, items⟩ => resolver.requestsAmong rootType [] items

end Resolver

def PathStep.bare (step : PathStep) : PathStep :=
  { step with filter := none, arrangement := none }

theorem PathStep.IsPlain.bare {step : PathStep} (plain : step.IsPlain) : step.bare = step := by
  obtain ⟨noFilter, noArrangement⟩ := plain
  cases step
  simp_all [PathStep.bare]

theorem MemberPath.map_bare {path : MemberPath} (plain : ∀ step ∈ path, step.IsPlain) :
    path.map PathStep.bare = path := by
  conv_rhs => rw [← List.map_id path]
  exact List.map_congr_left fun step member => (plain step member).bare

theorem Walk.bare {schema : Schema} {typeName : String} {path : MemberPath}
    (walk : Walk schema typeName path) : Walk schema typeName (path.map PathStep.bare) := by
  induction walk with
  | nil typeName => exact .nil typeName
  | last resolves => exact .last resolves
  | cons resolves leads later ih => exact .cons resolves leads ih

def ExpandItem.request (item : ExpandItem) : ExpandRequest where
  path := item.target.map PathStep.bare
  filter := (item.target.getLast?.bind PathStep.filter).map ScopedFilter.filter
  arrangement := (item.target.getLast?.bind PathStep.arrangement).getD ⟨[], none, none⟩

theorem Arrangement.eq_of_isEmpty {arrangement : Arrangement}
    (empty : arrangement.isEmpty = true) : arrangement = ⟨[], none, none⟩ := by
  cases arrangement
  simp_all [Arrangement.isEmpty]

namespace Resolver

variable {resolver : Resolver}

theorem selectTarget_elsewhere {path added : MemberPath} {typeName : String}
    {segments : List String} {element : Option String} (some_ : added ≠ [])
    (found : resolver.selectTarget path typeName segments = .ok (path ++ added, element))
    (other : MemberPath) :
    resolver.selectTarget other typeName segments = .ok (other ++ added, element) := by
  have sameLast : (other ++ added).getLast? = (path ++ added).getLast? := by
    simp [List.getLast?_append, List.getLast?_eq_some_getLast some_]
  obtain ⟨follows, kind, isKind, isElement⟩ := selectTarget_iff.1 found
  rw [selectTarget_iff, sameLast]
  exact ⟨follow_elsewhere follows other, kind, isKind, isElement⟩

theorem request_optionsOf (resolver : Resolver) (before : MemberPath) (last : PathStep) (element : String)
    (filter : Option Filter) (arrangement : Arrangement) (below : Bool) :
    ExpandItem.request ⟨before ++ [resolver.optionsOf element filter arrangement last], below⟩ =
      ⟨before.map PathStep.bare ++ [last.bare], filter, arrangement⟩ := by
  have sameArrangement :
      (resolver.optionsOf element filter arrangement last).arrangement.getD ⟨[], none, none⟩ =
        arrangement := by
    by_cases empty : arrangement.isEmpty = true
    · simpa [optionsOf, empty] using (Arrangement.eq_of_isEmpty empty).symm
    · simp [optionsOf, empty]
  have sameFilter : (resolver.optionsOf element filter arrangement last).filter.map
      ScopedFilter.filter = filter := by
    cases filter <;> rfl
  have sameStep : (resolver.optionsOf element filter arrangement last).bare = last.bare := rfl
  simp only [ExpandItem.request, List.map_append, List.map_cons, List.map_nil, sameStep,
    List.getLast?_append, List.getLast?_singleton, Option.some_or, Option.bind_some, sameFilter,
    sameArrangement]

theorem request_of_target {path before : MemberPath} {last : PathStep} {element : String}
    {filter : Option Filter} {arrangement : Arrangement} (below : Bool)
    (plain : ∀ step ∈ before ++ [last], step.IsPlain) :
    ExpandItem.request ⟨path ++ before ++ [resolver.optionsOf element filter arrangement last], below⟩ =
      ⟨path.map PathStep.bare ++ (before ++ [last]), filter, arrangement⟩ := by
  rw [request_optionsOf, List.map_append, List.append_assoc]
  have same := MemberPath.map_bare plain
  rw [List.map_append, List.map_singleton] at same
  rw [same]

theorem bare_target {path before : MemberPath} {last : PathStep} {element : String}
    {filter : Option Filter} {arrangement : Arrangement}
    (plain : ∀ step ∈ before ++ [last], step.IsPlain) :
    (path ++ before ++ [resolver.optionsOf element filter arrangement last]).map PathStep.bare =
      path.map PathStep.bare ++ (before ++ [last]) :=
  congrArg ExpandRequest.path (request_of_target false plain)

theorem requestsAmong_perm (resolver : Resolver) (items : List ClauseItem) {below below' : Bool}
    {typeName : String} {path : MemberPath} {expands selects : List ExpandItem}
    (isExpands : resolver.expandsMet below typeName path items = .ok expands)
    (isSelects : resolver.selectsMet below' typeName path items = .ok selects) :
    ∃ requests, resolver.requestsAmong typeName (path.map PathStep.bare) items = .ok requests ∧
      ((expands ++ selects).map ExpandItem.request).Perm requests := by
  match items with
  | [] =>
    simp only [expandsMet, selectsMet, Except.ok.injEq] at isExpands isSelects
    exact ⟨[], by simp only [requestsAmong], by simp [← isExpands, ← isSelects]⟩
  | .expand segments none filter arrangement :: rest =>
    simp only [expandsMet, selectsMet, bind_eq_ok, pure_eq_ok] at isExpands isSelects
    obtain ⟨⟨target, element⟩, leads, others, isOthers, rfl⟩ := isExpands
    obtain ⟨requests, isRequests, perm⟩ := requestsAmong_perm resolver rest isOthers isSelects
    obtain ⟨-, before, last, rfl, -, plain, toElement, -, follows⟩ := expandTarget_eq_ok leads
    -- The requests are followed from the bare path, the expand items from the path with its
    -- options.
    rw [List.append_assoc] at follows
    refine ⟨⟨path.map PathStep.bare ++ (before ++ [last]), filter, arrangement⟩ :: requests, ?_, ?_⟩
    · simp only [requestsAmong, requestsOf, follow_elsewhere follows, isRequests, ok_bind]
      rfl
    · rw [List.cons_append, List.map_cons, request_of_target below plain]
      exact perm.cons _
  | .expand segments (some ⟨allSelected, inner⟩) filter arrangement :: rest =>
    simp only [expandsMet, selectsMet, bind_eq_ok, pure_eq_ok] at isExpands isSelects
    obtain ⟨⟨target, element⟩, leads, others, isOthers, expands', isExpands', selects', isSelects',
      rfl⟩ := isExpands
    obtain ⟨requests, isRequests, perm⟩ := requestsAmong_perm resolver rest isOthers isSelects
    obtain ⟨within, isWithin, permWithin⟩ := requestsAmong_perm resolver inner isExpands' isSelects'
    obtain ⟨-, before, last, rfl, -, plain, toElement, -, follows⟩ := expandTarget_eq_ok leads
    rw [List.append_assoc] at follows
    rw [bare_target plain] at isWithin
    refine ⟨⟨path.map PathStep.bare ++ (before ++ [last]), filter, arrangement⟩ ::
      within ++ requests, ?_, ?_⟩
    · simp only [requestsAmong, requestsOf, follow_elsewhere follows, isRequests, ok_bind,
        List.getLast?_append, List.getLast?_singleton, Option.some_or, Option.bind_some, toElement,
        isWithin]
      rfl
    · rw [List.append_assoc, List.map_append, List.map_cons, request_of_target below plain]
      exact (permWithin.cons _).append perm
  | .path segments none :: rest =>
    simp only [expandsMet, selectsMet, bind_eq_ok] at isExpands isSelects
    obtain ⟨⟨target, element⟩, leads, others, isOthers, isSelects⟩ := isSelects
    obtain ⟨requests, isRequests, perm⟩ := requestsAmong_perm resolver rest isExpands isOthers
    obtain ⟨added, some_, rfl, -⟩ := selectTarget_eq_ok leads
    have same : others = selects := by
      cases element <;> exact pure_eq_ok.1 isSelects
    subst same
    refine ⟨requests, ?_, perm⟩
    simp only [requestsAmong, requestsOf, selectTarget_elsewhere some_ leads, isRequests, ok_bind]
    rfl
  | .path segments (some ⟨allSelected, inner⟩) :: rest =>
    simp only [expandsMet, selectsMet, bind_eq_ok] at isExpands isSelects
    obtain ⟨⟨target, element⟩, leads, others, isOthers, isSelects⟩ := isSelects
    obtain ⟨requests, isRequests, perm⟩ := requestsAmong_perm resolver rest isExpands isOthers
    obtain ⟨added, some_, rfl, -, plain, -⟩ := selectTarget_eq_ok leads
    have leadsBare := selectTarget_elsewhere some_ leads (path.map PathStep.bare)
    cases element with
    | none =>
      obtain rfl := pure_eq_ok.1 isSelects
      refine ⟨requests, ?_, perm⟩
      simp only [requestsAmong, requestsOf, leadsBare, isRequests, ok_bind]
      rfl
    | some element =>
      simp only [bind_eq_ok, pure_eq_ok] at isSelects
      obtain ⟨expands', isExpands', selects', isSelects', rfl⟩ := isSelects
      obtain ⟨within, isWithin, permWithin⟩ := requestsAmong_perm resolver inner isExpands' isSelects'
      rw [List.map_append, MemberPath.map_bare plain] at isWithin
      refine ⟨within ++ requests, ?_, ?_⟩
      · simp only [requestsAmong, requestsOf, leadsBare, isRequests, ok_bind, isWithin]
        rfl
      · -- The builder meets all expand items of a level before it enters the selects.
        have moved : (expands ++ (expands' ++ selects' ++ others)).Perm
            (expands' ++ selects' ++ (expands ++ others)) := List.perm_append_comm_assoc _ _ _
        refine (moved.map _).trans ?_
        rw [List.map_append]
        exact permWithin.append perm
  | .reference _ :: rest | .count _ :: rest =>
    simp only [expandsMet, selectsMet] at isExpands isSelects
    obtain ⟨requests, isRequests, perm⟩ := requestsAmong_perm resolver rest isExpands isSelects
    refine ⟨requests, ?_, perm⟩
    simp only [requestsAmong, requestsOf, isRequests, ok_bind]
    rfl
termination_by items

theorem requests_of_expandItems {rootType : String} {clause : Option Clause}
    {found : List ExpandItem} (isFound : resolver.expandItems rootType clause = .ok found) :
    ∃ requests, resolver.requests rootType clause = .ok requests ∧
      (found.map ExpandItem.request).Perm requests := by
  match clause with
  | none =>
    simp only [expandItems, Except.ok.injEq] at isFound
    exact ⟨[], rfl, by simp [← isFound]⟩
  | some ⟨allSelected, items⟩ =>
    simp only [expandItems, bind_eq_ok, pure_eq_ok] at isFound
    obtain ⟨expands, isExpands, selects, isSelects, rfl⟩ := isFound
    exact requestsAmong_perm resolver items isExpands isSelects

end Resolver

section Lists

variable {resolver : Resolver} {rootType : String} {clause : Option Clause}
  {found : List ExpandItem} {forest : Forest} {kind : RefinementKind} {item : ExpandItem}

theorem ExpandItem.names_request (item : ExpandItem) :
    item.request.path.names = item.target.names := by
  simp [ExpandItem.request, MemberPath.names, PathStep.bare]

theorem ExpandItem.distinct_of_requests {requests : List ExpandRequest}
    (perm : (found.map ExpandItem.request).Perm requests)
    (different : (requests.map fun request => request.path.names).Nodup) : Distinct found := by
  have names := (perm.map fun request => request.path.names).nodup_iff.2 different
  simpa [Distinct, List.Nodup, List.pairwise_map, names_request] using names

theorem ExpandRequest.names_steps (context : BindingContext) (request : ExpandRequest) :
    (request.steps context).names = request.path.names := by
  rcases List.eq_nil_or_concat request.path with none_ | ⟨before, last, ends⟩
  · simp [steps, none_, ExpansionSteps.names, MemberPath.names]
  · simp [steps, ends, ExpansionSteps.names, MemberPath.names, lastStep, ExpansionStep.ofPathStep]

theorem ExpandItem.request_path_ne_nil (isFound : resolver.expandItems rootType clause = .ok found)
    (isItem : item ∈ found) : item.request.path ≠ [] := by
  obtain ⟨before, last, element, filter, arrangement, target, -⟩ :=
    Resolver.expandItems_last isFound isItem
  simp [ExpandItem.request, target]

theorem ExpandItem.steps_request (kind : RefinementKind)
    (isFound : resolver.expandItems rootType clause = .ok found)
    (isItem : item ∈ found) :
    ∃ (before : MemberPath) (last : PathStep), item.target = before ++ [last] ∧
      item.request.steps resolver.context = before.stepsTo last ∧
      item.request.carries kind = Refiner.carries kind (.ofPathStep last) := by
  obtain ⟨before, last, element, filter, arrangement, target, toElement⟩ :=
    Resolver.expandItems_last isFound isItem
  have asked : item.request = ⟨before.map PathStep.bare ++ [last.bare], filter, arrangement⟩ := by
    rw [← Resolver.request_optionsOf resolver before last element filter arrangement item.belowSelect, ← target]
  refine ⟨before, _, target, ?_, ?_⟩
  · have leads : last.memberType.typeName? = some element := toElement
    rw [asked]
    cases filter <;> simp [ExpandRequest.steps, ExpandRequest.lastStep, MemberPath.stepsTo, leads,
      PathStep.element?, Resolver.optionsOf, ExpansionStep.ofPathStep, ExpansionStep.withoutOptions, PathStep.bare]
  · rw [asked]
    cases kind with
    | filter =>
      simp [ExpandRequest.carries, Refiner.carries, ExpansionStep.hasFilter,
        ExpansionStep.ofPathStep, Resolver.optionsOf]
    | arrangement =>
      by_cases empty : arrangement.isEmpty = true <;>
        simp [ExpandRequest.carries, Refiner.carries, ExpansionStep.hasArrangement,
          ExpansionStep.ofPathStep, Resolver.optionsOf, empty]

theorem Forest.listsOf_perm (kind : RefinementKind)
    (isFound : resolver.expandItems rootType clause = .ok found)
    (grows : Forest.GrowsBy found .empty forest) (distinct : ExpandItem.Distinct found) :
    (forest.listsOf kind).Perm (((found.map ExpandItem.request).filter (·.carries kind)).map
      (·.steps resolver.context)) := by
  have nodup : (forest.listsOf kind).Nodup :=
    (ExpansionSteps.listsEndingIn_names _ _).imp fun different same => different (by rw [same])
  have nodupSteps : (((found.map ExpandItem.request).filter (·.carries kind)).map
      (·.steps resolver.context)).Nodup := by
    have names : ((found.map ExpandItem.request).map fun request => request.path.names).Nodup := by
      rw [List.map_map]
      exact List.pairwise_map.2 (distinct.imp fun different => by
        simpa [ExpandItem.names_request] using different)
    apply List.Nodup.of_map ExpansionSteps.names
    rw [List.map_map]
    simpa [Function.comp_def, ExpandRequest.names_steps] using
      names.sublist (List.filter_sublist.map _)
  rw [List.perm_ext_iff_of_nodup nodup nodupSteps]
  intro steps
  simp only [List.mem_map, List.mem_filter]
  constructor
  · intro isList
    obtain ⟨item, isItem, before, last, target, carries, rfl⟩ := item_of_steps isFound grows isList
    obtain ⟨before', last', target', sameSteps, sameCarries⟩ :=
      ExpandItem.steps_request kind isFound isItem
    obtain ⟨rfl, lasts⟩ := List.append_inj' (target.symm.trans target') rfl
    cases lasts
    exact ⟨item.request, ⟨⟨item, isItem, rfl⟩, sameCarries.trans carries⟩, sameSteps⟩
  · rintro ⟨-, ⟨⟨item, isItem, rfl⟩, carries⟩, rfl⟩
    obtain ⟨before, last, target, sameSteps, sameCarries⟩ :=
      ExpandItem.steps_request kind isFound isItem
    rw [sameSteps]
    exact steps_of_item isFound grows distinct isItem target (sameCarries ▸ carries)

end Lists

/-- No option of a clause is lost, repeated or moved: the lists of steps that the forest gives are
those of the requests that carry options. -/
theorem Forest.lists_of_requests {schema : Schema} {rootType : String} {clause : Option Clause}
    {context : BindingContext} {maxExpandDepth : Nat} {forest : Forest}
    (built : Forest.build schema rootType clause context maxExpandDepth = .ok forest) :
    ∃ requests, Resolver.requests ⟨schema, context, maxExpandDepth⟩ rootType clause = .ok requests ∧
      (∀ request ∈ requests, request.path ≠ [] ∧ Walk schema rootType request.path) ∧
      ((requests.map fun request => request.path.names).Nodup →
        (ExpansionSteps.endingInFilter (ExpansionSteps.ofForest forest)).Perm
          ((requests.filter fun request => request.filter.isSome).map (·.steps context)) ∧
        (ExpansionSteps.endingInArrangement (ExpansionSteps.ofForest forest)).Perm
          ((requests.filter fun request => !request.arrangement.isEmpty).map (·.steps context))) := by
  obtain ⟨found, isFound, grows⟩ := Forest.build_grows built
  obtain ⟨requests, isRequests, perm⟩ := Resolver.requests_of_expandItems isFound
  refine ⟨requests, isRequests, ?_, ?_⟩
  · intro request isRequest
    obtain ⟨item, isItem, rfl⟩ := List.mem_map.1 (perm.mem_iff.2 isRequest)
    exact ⟨ExpandItem.request_path_ne_nil isFound isItem,
      (Resolver.expandItems_walk isFound isItem).bare⟩
  · intro different
    have distinct := ExpandItem.distinct_of_requests perm different
    have lists (kind : RefinementKind) := (Forest.listsOf_perm kind isFound grows distinct).trans
      ((perm.filter _).map _)
    exact ⟨lists .filter, lists .arrangement⟩

def travelSchema : Schema :=
  ⟨[⟨"Traveller", .entity, none, [⟨"Name", .scalar .string⟩, ⟨"Home", .named "Address"⟩,
      ⟨"Trips", .collection .list (.named "Trip")⟩]⟩,
    ⟨"Address", .complex, none, [⟨"City", .scalar .string⟩, ⟨"Country", .named "Country"⟩]⟩,
    ⟨"Country", .entity, none, [⟨"Regions", .collection .list (.named "Region")⟩]⟩,
    ⟨"Region", .entity, none, [⟨"Code", .scalar .string⟩]⟩,
    ⟨"Trip", .entity, none, [⟨"Year", .scalar .int32⟩,
      ⟨"Stops", .collection .list (.named "Region")⟩]⟩]⟩

def travelClause : Option Clause :=
  let after (year : Int) : Filter := .compare (.member "Year") .gt (.literal (.number ⟨year, 0⟩))
  some ⟨false, [.expand ["Trips"]
      (some ⟨true, [.expand ["Stops"] none none ⟨[], none, some 2⟩]⟩) (some (after 2000))
      ⟨[⟨"Year", .descending⟩], none, none⟩,
    .path ["Home"] (some ⟨true, [.expand ["Country", "Regions"] none
      (some (.compare (.member "Code") .eq (.literal (.string "N")))) ⟨[], some 1, none⟩]⟩),
    .path ["Name"] (some ⟨true, [.expand ["Trips"] none none ⟨[], none, some 1⟩]⟩)]⟩

theorem lists_of_requests_traveller :
    ∃ forest requests, Forest.build travelSchema "Traveller" travelClause ⟨true, none⟩ 4 =
        .ok forest ∧
      Resolver.requests ⟨travelSchema, ⟨true, none⟩, 4⟩ "Traveller" travelClause = .ok requests ∧
      (requests.map fun request => request.path.names) =
        [["Trips"], ["Trips", "Stops"], ["Home", "Country", "Regions"]] ∧
      (ExpansionSteps.endingInFilter (ExpansionSteps.ofForest forest)).Perm
        ((requests.filter fun request => request.filter.isSome).map (·.steps ⟨true, none⟩)) ∧
      (ExpansionSteps.endingInArrangement (ExpansionSteps.ofForest forest)).Perm
        ((requests.filter fun request => !request.arrangement.isEmpty).map
          (·.steps ⟨true, none⟩)) := by
  obtain ⟨forest, built, -⟩ := exists_of_toOption_any
    (Forest.build travelSchema "Traveller" travelClause ⟨true, none⟩ 4) (fun _ => true)
    (by decide +kernel)
  obtain ⟨requests, isRequests, -, lists⟩ := Forest.lists_of_requests built
  obtain ⟨requests', isRequests', named⟩ := exists_of_toOption_any
    (Resolver.requests ⟨travelSchema, ⟨true, none⟩, 4⟩ "Traveller" travelClause)
    (fun requests => (requests.map fun request => request.path.names) ==
      [["Trips"], ["Trips", "Stops"], ["Home", "Country", "Regions"]])
    (by rfl)
  cases isRequests.symm.trans isRequests'
  have names := beq_iff_eq.1 named
  exact ⟨forest, requests, built, isRequests, names, lists (by rw [names]; decide)⟩

end QueryProjection
