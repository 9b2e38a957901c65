import QueryProjection.Proofs.Evaluation.LevelByLevel
import QueryProjection.Proofs.Filter.Translated
import QueryProjection.Proofs.Mapping.Pushdown
import QueryProjection.Proofs.Request.Paging

set_option autoImplicit false

namespace QueryProjection

open Outcome Evaluation

namespace Mapping

/-- The path is selected by default, and its last member has the type of the source member that it
is read from. No step is bound to a projection parameter, since there is no source member then. -/
def Carries (mapping : Mapping) (resolver : Resolver) (forest : Forest)
    (modelType sourceType path : String) : Prop :=
  ∃ target ∈ forest.selects,
    resolver.follow [] modelType (Text.pathSegments path) = .ok target ∧
      ∃ member, mapping.sourceMember? (.named sourceType) target = some member ∧
        ∀ last ∈ target.getLast?, member.ty.nonNull = last.memberType.nonNull

def Projects (projection : Lambda) (rows : List Value) (row record : Value) : Prop :=
  projection.valueOn rows row = .ok record

variable {mapping : Mapping} {forest : Forest} {includes : List Lambda}
  {parameters : ProjectionParameters} {projection : Lambda} {sourceType path : String}
  {rows records : List Value} {maxExpandDepth : Nat}

theorem memberPath_commutes (binder : Binder) {expr : Expr} (sameSchema : binder.schema = mapping.schema)
    (fromSource : mapping.typeToSource (.named binder.elementType) = .named sourceType)
    (built : Forest.build mapping.schema binder.elementType none binder.context maxExpandDepth =
      .ok forest)
    (included : Include.ofForest mapping.schema binder.elementType forest = .ok includes)
    (projected : mapping.project sourceType binder.elementType includes parameters = .ok projection)
    (carries : mapping.Carries ⟨mapping.schema, binder.context, maxExpandDepth⟩ forest
      binder.elementType sourceType path)
    (reads : binder.memberPath path = .ok expr) :
    mapping.Commutes (Projects projection rows) rows records expr := by
  obtain ⟨target, selected, followed, member, ends, sameType⟩ := carries
  obtain ⟨step, rest, rfl, walk, singles, rfl⟩ :=
    Binder.memberPath_eq_ok sameSchema.symm reads followed
  rw [sameSchema] at walk
  simp only [project, bind_eq_ok, pure_eq_ok] at projected
  obtain ⟨-, -, tree, isTree, body, constructed, rfl⟩ := projected
  have isDefault := (Forest.build_none built).2 _ selected
  have covers := Forest.covers_default built included isTree selected walk
  obtain ⟨sourceReads, isRead, follows⟩ :=
    reads_follow isDefault singles constructed covers rfl ends sameType
  have element : mapping.toSource (.parameter binder.element) =
      .ok (.parameter ⟨elementName, .named sourceType⟩) := by
    simp only [toSource, parameterToSource, Binder.element, fromSource]
  -- The projection names its parameter differently, and reads the same under that name.
  have alike (row : Value) : AlikeIn rows rows [(itemNameAtDepth 0, row)] [(elementName, row)]
      (.parameter ⟨itemNameAtDepth 0, .named sourceType⟩)
      (.parameter ⟨elementName, .named sourceType⟩) :=
    ⟨rfl, .of_eq (by simp only [eval, List.lookup_cons_self])⟩
  have readsAlike (row : Value) := isRead ▸ readAlong_alike (alike row) (step :: rest)
  obtain ⟨elementReads, isElementRead⟩ : ∃ elementReads,
      mapping.readAlong (.parameter ⟨elementName, .named sourceType⟩) (step :: rest) =
        .ok elementReads := by
    have related := readsAlike .null
    generalize mapping.readAlong (.parameter ⟨elementName, .named sourceType⟩) (step :: rest) =
      outcome at related ⊢
    cases related
    exact ⟨_, rfl⟩
  have translated := toSource_membersAlong element rfl walk isElementRead
  rw [Expr.membersAlong] at translated
  obtain _ | @⟨_, firstRead, _, otherReads, first, others⟩ := translated
  obtain ⟨mapped, isMapped, evaluates⟩ :=
    toSource_closed binder.context.nullPropagation first others
  refine ⟨mapped, isMapped, fun row record isRecord => ?_⟩
  have isTarget : eval records [(elementName, record)] (.parameter binder.element) = .ok record := by
    simp only [eval, Binder.element, List.lookup_cons_self]
  have along := follows rows _ records _ _ record isRecord isTarget
  have agree : List.Forall₂ Agree
      (sourceReads.map (eval rows [(itemNameAtDepth 0, row)]))
      ((firstRead :: otherReads).map (eval rows [(elementName, row)])) := by
    have related := readsAlike row
    rw [isElementRead] at related
    cases related with
    | ok each =>
      rw [List.forall₂_map_left_iff, List.forall₂_map_right_iff]
      exact each.imp fun _ _ alike => alike.agree
  have closed := (along.congr agree).closed binder.context.nullPropagation
  rw [← Expr.eval_closed, ← evaluates] at closed
  exact closed

end Mapping

namespace Binder

variable {binder : Binder} {mapping : Mapping} {related : Value → Value → Prop}
  {rows records : List Value}

theorem levels_commute {order : List OrderKey} {levels : List OrderLevel}
    (reads : ∀ key ∈ order, ∀ read, binder.memberPath key.path = .ok read →
      mapping.Commutes related rows records read)
    (bound : binder.levels order = .ok levels) :
    ∃ mapped, mapping.levelsToSource levels = .ok mapped ∧
      List.Forall₂ (SortKey.AgreeOn related) (mapped.map (OrderLevel.sortKey rows []))
        (levels.map (OrderLevel.sortKey records [])) := by
  induction order generalizing levels with
  | nil =>
    simp only [Binder.levels, Except.ok.injEq] at bound
    subst bound
    exact ⟨[], rfl, .nil⟩
  | cons key rest ih =>
    obtain ⟨readsKey, readsRest⟩ := List.forall_mem_cons.1 reads
    simp only [Binder.levels, bind_eq_ok, pure_eq_ok] at bound
    obtain ⟨path, isPath, others, areOthers, rfl⟩ := bound
    obtain ⟨body, isBody, same⟩ := readsKey path isPath
    obtain ⟨mapped, areMapped, agree⟩ := ih readsRest areOthers
    refine ⟨⟨key.direction, ⟨mapping.parameterToSource binder.element, body⟩⟩ :: mapped, ?_,
      .cons ⟨rfl, ?_⟩ agree⟩
    · simp only [Mapping.levelsToSource, Mapping.lambdaToSource, isBody, areMapped, ok_bind]
      rfl
    · exact fun row record isRelated => (same row record isRelated).symm

end Binder

namespace Request

def plain (request : Request) : Request :=
  { request with options := .ofModel request.model }

def paths (request : Request) : List String :=
  (request.options.filter.map Filter.paths).getD [] ++
    request.options.order.map OrderKey.path

def keptRecords (request : Request) (context : BindingContext) (records : List Value) :
    Outcome (List Value) :=
  match request.options.filter with
  | none => .ok records
  | some filter => do
      let predicate ← filter.bind request.mapping.schema request.model context
      itemsWhere (predicate.valueOn records) records

/-- What the options say of projected records: which to keep, in which order, and which of those. -/
def answerOnRecords (request : Request) (context : BindingContext) (records : List Value) :
    Outcome (List Value) := do
  let kept ← request.keptRecords context records
  let levels ← Binder.levels ⟨request.mapping.schema, request.model, context⟩ request.options.order
  OrderLevel.arranged records levels request.options.skip request.options.top kept

variable {request : Request} {context : BindingContext} {sourceType : String}
  {rows records : List Value} {related : Value → Value → Prop}

theorem answerOnRecords_of_hasKinds {kept : List Value} {levels : List OrderLevel}
    (isKept : request.keptRecords context records = .ok kept)
    (areLevels : Binder.levels ⟨request.mapping.schema, request.model, context⟩ request.options.order =
      .ok levels)
    (hasKinds : ∀ level ∈ levels, ∃ kind, OrderLevel.HasKind records kept level kind) :
    request.answerOnRecords context records =
      .ok (window request.options.skip request.options.top
        (OrderLevel.sortByLevels records levels kept)) := by
  simp only [answerOnRecords, isKept, areLevels, ok_bind, OrderLevel.arranged,
    OrderLevel.ordered_of_hasKinds hasKinds]
  rfl

theorem passing_related
    (fromSource : request.mapping.typeToSource (.named request.model) = .named sourceType)
    (related_ : List.Forall₂ related rows records)
    (reads : ∀ filter ∈ request.options.filter, ∀ path ∈ filter.paths, ∀ read,
      Binder.memberPath ⟨request.mapping.schema, request.model, context⟩ path = .ok read →
        request.mapping.Commutes related rows records read) :
    Related (List.Forall₂ related) (request.passing context sourceType rows)
      (request.keptRecords context records) := by
  cases present : request.options.filter with
  | none =>
    simp only [passing, keptRecords, present]
    exact .ok related_
  | some filter =>
    simp only [passing, keptRecords, present]
    cases bound : filter.bind request.mapping.schema request.model context with
    | error cause => exact .failed _ _
    | ok predicate =>
      obtain ⟨isElement, built⟩ := Filter.bind_eq_ok bound
      obtain ⟨body, translated, same⟩ := built.commutes (reads filter present)
      -- The predicate reads the row under the name under which it read the record.
      have mapped : request.mapping.predicateToSource predicate sourceType =
          .ok ⟨⟨elementName, .named sourceType⟩, body⟩ := by
        simp only [Mapping.predicateToSource, Mapping.lambdaToSource, translated, isElement,
          Mapping.parameterToSource, Binder.element, fromSource, ok_bind, pure_bind]
        exact if_pos rfl
      simp only [mapped, ok_bind]
      refine itemsWhere_related (fun row record isRelated => ?_) related_
      rw [Lambda.valueOn, Lambda.valueOn, isElement]
      exact (same row record isRelated).symm

theorem levels_related
    (reads : ∀ key ∈ request.options.order, ∀ read,
      Binder.memberPath ⟨request.mapping.schema, request.model, context⟩ key.path = .ok read →
        request.mapping.Commutes related rows records read) :
    Related (fun levels levels' => List.Forall₂ (SortKey.AgreeOn related)
        (levels.map (OrderLevel.sortKey rows [])) (levels'.map (OrderLevel.sortKey records [])))
      (request.levels context)
      (Binder.levels ⟨request.mapping.schema, request.model, context⟩ request.options.order) := by
  unfold levels
  cases bound : Binder.levels ⟨request.mapping.schema, request.model, context⟩
      request.options.order with
  | error cause => exact .failed _ _
  | ok levels =>
    obtain ⟨mapped, areMapped, agree⟩ := Binder.levels_commute reads bound
    rw [ok_bind, areMapped]
    exact .ok agree

end Request

namespace FilteredRequest

variable {filtered : FilteredRequest} {rows records : List Value}

theorem answer_agrees {selector : Lambda} (selects : filtered.selector = .ok selector)
    (noPages : filtered.request.settings.pageSize = none)
    (fromSource : filtered.request.mapping.typeToSource (.named filtered.request.model) =
      .named filtered.sourceType)
    (projects : mapItems (selector.valueOn rows) rows = .ok records)
    (reads : ∀ path ∈ filtered.request.paths, ∀ read,
      Binder.memberPath ⟨filtered.request.mapping.schema, filtered.request.model, filtered.context⟩
        path = .ok read →
      filtered.request.mapping.Commutes (Mapping.Projects selector rows) rows records read) :
    Agree (filtered.answer rows) (filtered.request.answerOnRecords filtered.context records) := by
  have passes := Request.passing_related fromSource (mapItems_eq_ok.1 projects)
    fun filter present path stands => reads path (by
      simp only [Request.paths, Option.mem_def.1 present, Option.map_some, Option.getD_some]
      exact List.mem_append_left _ stands)
  have orders := Request.levels_related fun key stands => reads key.path
    (List.mem_append_right _ (List.mem_map_of_mem stands))
  have take : filtered.request.take = filtered.request.options.top := by
    unfold Request.take
    rw [noPages]
    cases filtered.request.options.top <;> rfl
  simp only [answer, Request.answerOnRecords, ← OrderLevel.arrangeItems_eq, selects, ok_bind, take]
  generalize filtered.request.passing filtered.context filtered.sourceType rows = passing at passes ⊢
  generalize filtered.request.keptRecords filtered.context records = kept at passes ⊢
  generalize filtered.request.levels filtered.context = levels at orders ⊢
  generalize Binder.levels ⟨filtered.request.mapping.schema, filtered.request.model, filtered.context⟩
    filtered.request.options.order = levels' at orders ⊢
  -- The two sides compute filter and order in turn; they agree on a failure whichever comes first.
  cases passes with
  | failed cause cause' =>
    cases orders with
    | failed cause'' _ => exact .failed cause'' cause'
    | ok _ => exact .failed cause cause'
  | ok keptAlike =>
    cases orders with
    | failed cause cause' => exact .failed cause cause'
    | ok keysAlike =>
      simp only [ok_bind]
      have arranged := arrangeItems_related filtered.request.options.skip
        filtered.request.options.top keysAlike keptAlike
      generalize arrangeItems _ _ _ _ = left at arranged ⊢
      generalize arrangeItems _ _ _ _ = right at arranged ⊢
      cases arranged with
      | failed cause cause' => exact .failed cause cause'
      | ok together =>
        rw [ok_bind, mapItems_eq_ok.2 together]
        exact .refl _

theorem selector_eq_ok {projection : Lambda} (noClause : filtered.request.options.clause = none) :
    filtered.selector = .ok projection ↔ ∃ forest includes,
      Forest.build filtered.request.mapping.schema filtered.request.model none filtered.context
        filtered.request.settings.limits.maxExpandDepth = .ok forest ∧
      Include.ofForest filtered.request.mapping.schema filtered.request.model forest =
        .ok includes ∧
      filtered.request.mapping.project filtered.sourceType filtered.request.model includes
        filtered.request.settings.parameters = .ok projection := by
  have unrefined (forest : Forest) (none_ : forest.expansions = []) (body : Expr) :
      filtered.refined (ExpansionSteps.ofForest forest) body = .ok body := by
    simp only [ExpansionSteps.ofForest, none_, List.map_nil]
    rfl
  simp only [selector, noClause, bind_eq_ok, pure_eq_ok]
  constructor
  · intro selects
    obtain ⟨forest, built, includes, included, made, projects, body, refines, rfl⟩ := selects
    rw [unrefined forest (Forest.build_none built).1] at refines
    cases refines
    exact ⟨forest, includes, built, included, projects⟩
  · intro made
    obtain ⟨forest, includes, built, included, projects⟩ := made
    exact ⟨forest, built, includes, included, projection, projects, projection.body,
      unrefined forest (Forest.build_none built).1 _, rfl⟩

end FilteredRequest

namespace Request

variable {request : Request} {memory : MemoryRows} {elementType : String}

theorem typeToSource_of_sourceType {query : Query} {sourceType : String}
    (isSource : request.sourceType query = .ok sourceType) :
    request.mapping.typeToSource (.named request.model) = .named sourceType ∧
      sourceType = query.elementType := by
  simp only [Request.sourceType, bind_eq_ok] at isSource
  obtain ⟨declared, found, name, isName, isSource⟩ := isSource
  split at isSource
  next same =>
    rw [pure_eq_ok] at isSource
    subst isSource
    refine ⟨?_, same⟩
    unfold Mapping.sourceType at isName
    simp only [Mapping.typeToSource]
    cases mapped : request.mapping.maps.lookup request.model with
    | some map =>
      simp only [mapped, Except.ok.injEq] at isName ⊢
      rw [isName]
    | none =>
      simp only [mapped, found, ok_bind, pure_eq_ok] at isName ⊢
      have named : declared.name = request.model := by
        unfold Schema.get at found
        split at found
        next other isFound =>
          cases found
          simpa using List.find?_some isFound
        next => simp at found
      rw [← isName, named]
  next => simp at isSource

theorem applied_of_ofProvider {filtered : FilteredRequest}
    (isApplied : request.applyFilter (Query.ofProvider memory.provider elementType) = .ok filtered) :
    ∃ query, filtered = ⟨request, request.settings.bindingContext memory.provider.guardsNulls,
        elementType, query⟩ ∧
      request.sourceType (Query.ofProvider memory.provider elementType) = .ok elementType ∧
      request.mapping.typeToSource (.named request.model) = .named elementType := by
  obtain ⟨-, -, same, isContext, isSource, -, -, -⟩ := applyFilter_eq_ok isApplied
  obtain ⟨fromSource, isElement⟩ := typeToSource_of_sourceType isSource
  obtain ⟨request', context, sourceType, query⟩ := filtered
  simp only at same isContext isSource fromSource isElement
  have isElement : sourceType = elementType := isElement
  subst same isContext isElement
  exact ⟨query, rfl, isSource, fromSource⟩

theorem plain_projects {token : Token} {response : Response}
    (noPages : request.settings.pageSize = none)
    (responds : request.plain.respond (Query.ofProvider memory.provider elementType) token =
      .ok response) :
    ∃ query projection, request.sourceType (Query.ofProvider memory.provider elementType) =
        .ok elementType ∧
      request.mapping.typeToSource (.named request.model) = .named elementType ∧
      FilteredRequest.selector ⟨request.plain,
        request.settings.bindingContext memory.provider.guardsNulls, elementType, query⟩ =
          .ok projection ∧
      mapItems (projection.valueOn memory.rows) memory.rows = .ok response.rows := by
  simp only [respond_eq_ok, responseOver, bind_eq_ok, pure_eq_ok] at responds
  obtain ⟨filtered, isApplied, count, -, query, projected, rows, executed, rfl⟩ := responds
  have applied := applied_of_applyFilter isApplied
  have answered := (FilteredRequest.projected_execute applied memory
    (FilteredRequest.fits_of_projected applied projected)).eq_ok_iff rows |>.1
    (by rw [projected]; exact executed)
  obtain ⟨query', rfl, isSource, fromSource⟩ := applied_of_ofProvider isApplied
  obtain ⟨levels, projection, passing, ordered, areLevels, selects, passes, sorted, mapped⟩ :=
    answer_eq_ok.1 answered
  refine ⟨query', projection, isSource, fromSource, selects, ?_⟩
  -- Without options there is no order, no filter and no window to look at.
  have noLevels : levels = [] := by
    simpa [Request.levels, plain, RequestOptions.ofModel, Binder.levels, Mapping.levelsToSource,
      eq_comm] using areLevels
  have allPass : passing = memory.rows := by
    simpa [Request.passing, plain, RequestOptions.ofModel, eq_comm] using passes
  subst noLevels allPass
  simp only [List.map_nil, orderItems_nil, Except.ok.injEq] at sorted
  subst sorted
  have noTake : request.plain.take = none := by
    simp only [take, plain, RequestOptions.ofModel, noPages]
  rw [noTake] at mapped
  exact mapped

theorem filtered_of_passing {context : BindingContext} {sourceType : String}
    {rows passing : List Value} (passes : request.passing context sourceType rows = .ok passing)
    (expression : Expr) :
    ∃ applied, request.filtered context sourceType expression = .ok applied := by
  cases present : request.options.filter with
  | none => exact ⟨expression, by simp only [filtered, present]⟩
  | some filter =>
    simp only [Request.passing, present, bind_eq_ok] at passes
    obtain ⟨predicate, bound, mapped, translated, -⟩ := passes
    refine ⟨expression.filteredBy mapped, ?_⟩
    simp only [filtered, present, bound, translated, ok_bind]
    rfl

section OnRecords

variable {token : Token} {forest : Forest} {response : Response}

theorem answer_on_records (noClause : request.options.clause = none)
    (noPages : request.settings.pageSize = none)
    (built : Forest.build request.mapping.schema request.model none
      (request.settings.bindingContext memory.provider.guardsNulls)
      request.settings.limits.maxExpandDepth = .ok forest)
    (carries : ∀ path ∈ request.paths, request.mapping.Carries
      ⟨request.mapping.schema, request.settings.bindingContext memory.provider.guardsNulls,
        request.settings.limits.maxExpandDepth⟩ forest request.model elementType path)
    (responds : request.plain.respond (Query.ofProvider memory.provider elementType) token =
      .ok response) :
    request.sourceType (Query.ofProvider memory.provider elementType) = .ok elementType ∧
      Related (fun _ _ => True)
        (request.passing (request.settings.bindingContext memory.provider.guardsNulls) elementType
          memory.rows)
        (request.keptRecords (request.settings.bindingContext memory.provider.guardsNulls)
          response.rows) ∧
      ∀ query, Agree (FilteredRequest.answer ⟨request,
          request.settings.bindingContext memory.provider.guardsNulls, elementType, query⟩ memory.rows)
        (request.answerOnRecords (request.settings.bindingContext memory.provider.guardsNulls)
          response.rows) := by
  obtain ⟨plainQuery, projection, isSource, fromSource, selects, projects⟩ :=
    plain_projects noPages responds
  obtain ⟨forest', includes, built', included, projected⟩ :=
    (FilteredRequest.selector_eq_ok rfl).1 selects
  have sameForest : Except.ok forest' = Except.ok forest := built'.symm.trans built
  cases sameForest
  have included : Include.ofForest request.mapping.schema request.model forest = .ok includes :=
    included
  have projected : request.mapping.project elementType request.model includes
      request.settings.parameters = .ok projection := projected
  have reads : ∀ path ∈ request.paths, ∀ read, Binder.memberPath ⟨request.mapping.schema,
      request.model, request.settings.bindingContext memory.provider.guardsNulls⟩ path = .ok read →
      request.mapping.Commutes (Mapping.Projects projection memory.rows) memory.rows response.rows
        read := by
    intro path stands read bound
    exact Mapping.memberPath_commutes
      ⟨request.mapping.schema, request.model,
        request.settings.bindingContext memory.provider.guardsNulls⟩
      rfl fromSource built included projected (carries path stands) bound
  refine ⟨isSource, ?_, fun query => ?_⟩
  · refine (passing_related fromSource (mapItems_eq_ok.1 projects) ?_).mono fun _ _ _ => trivial
    intro filter present path stands
    refine reads path ?_
    simp only [paths, Option.mem_def.1 present, Option.map_some, Option.getD_some]
    exact List.mem_append_left _ stands
  · refine FilteredRequest.answer_agrees ?_ noPages fromSource projects reads
    exact (FilteredRequest.selector_eq_ok noClause).2 ⟨forest, includes, built, included, projected⟩

theorem respond_iff_of_agrees (token : Token) {records : List Value}
    (noSearch : request.options.search = none)
    (noPages : request.settings.pageSize = none)
    (within : request.settings.limits.check request.options = .ok ())
    (fits : Arrangement.Fits request.options.skip request.options.top)
    (isSource : request.sourceType (Query.ofProvider memory.provider elementType) = .ok elementType)
    (passes : Related (fun _ _ => True)
      (request.passing (request.settings.bindingContext memory.provider.guardsNulls) elementType
        memory.rows)
      (request.keptRecords (request.settings.bindingContext memory.provider.guardsNulls) records))
    (agrees : ∀ query, Agree (FilteredRequest.answer ⟨request,
        request.settings.bindingContext memory.provider.guardsNulls, elementType, query⟩ memory.rows)
      (request.answerOnRecords (request.settings.bindingContext memory.provider.guardsNulls) records))
    (rows : List Value) :
    (∃ feature, request.respond (Query.ofProvider memory.provider elementType) token =
        .ok ⟨rows, feature⟩) ↔
      request.answerOnRecords (request.settings.bindingContext memory.provider.guardsNulls) records =
        .ok rows := by
  constructor
  · intro answered
    obtain ⟨feature, answered⟩ := answered
    simp only [respond_eq_ok, responseOver, bind_eq_ok, pure_eq_ok, Response.mk.injEq] at answered
    obtain ⟨filtered, isApplied, count, -, query, projected, found, executed, rfl, -⟩ := answered
    have applied := applied_of_applyFilter isApplied
    obtain ⟨query', rfl, -, -⟩ := applied_of_ofProvider isApplied
    have computed := (FilteredRequest.projected_execute applied memory
      (FilteredRequest.fits_of_projected applied projected)).eq_ok_iff found |>.1
      (by rw [projected]; exact executed)
    exact ((agrees query').eq_ok_iff found).1 computed
  · intro computed
    obtain ⟨kept, isKept, -⟩ := bind_eq_ok.1 computed
    rw [isKept] at passes
    obtain ⟨passing, isPassing⟩ : ∃ passing, request.passing
        (request.settings.bindingContext memory.provider.guardsNulls) elementType memory.rows =
          .ok passing := by
      generalize request.passing _ elementType memory.rows = outcome at passes ⊢
      cases passes
      exact ⟨_, rfl⟩
    obtain ⟨expression, isFiltered⟩ := filtered_of_passing isPassing (.allRows elementType)
    have isApplied := applyFilter_of request within (by rw [noSearch]; rfl) isSource isFiltered
    have applied := applied_of_applyFilter isApplied
    have answered := ((agrees { Query.ofProvider memory.provider elementType with expression }).eq_ok_iff
      rows).2 computed
    have noTake : request.take = request.options.top := by
      unfold take
      rw [noPages]
      cases request.options.top <;> rfl
    obtain ⟨query, projected, executed⟩ := bind_eq_ok.1
      ((FilteredRequest.projected_execute applied memory (by rw [noTake]; exact fits)).eq_ok_iff rows
        |>.2 answered)
    have counted := (FilteredRequest.count_filtered applied memory).eq_ok_iff passing.length |>.2
      (bind_eq_ok.2 ⟨passing, isPassing, rfl⟩)
    obtain ⟨count, isCounted⟩ : ∃ count, request.countRows _ memory = .ok count := by
      unfold countRows
      split
      next => exact ⟨some passing.length, by rw [counted]; rfl⟩
      next => exact ⟨none, rfl⟩
    refine ⟨request.recorded count, ?_⟩
    simp only [respond_eq_ok, responseOver, isApplied, isCounted, projected, executed, ok_bind]
    rfl

/-- The options say of the projected records what they say of the source rows. Where every key has one
kind of value, the records that are kept come in the order of a stable sort by each key in turn. -/
theorem respond_on_records (noClause : request.options.clause = none)
    (noSearch : request.options.search = none) (noPages : request.settings.pageSize = none)
    (within : request.settings.limits.check request.options = .ok ())
    (fits : Arrangement.Fits request.options.skip request.options.top)
    (built : Forest.build request.mapping.schema request.model none
      (request.settings.bindingContext memory.provider.guardsNulls)
      request.settings.limits.maxExpandDepth = .ok forest)
    (carries : ∀ path ∈ request.paths, request.mapping.Carries
      ⟨request.mapping.schema, request.settings.bindingContext memory.provider.guardsNulls,
        request.settings.limits.maxExpandDepth⟩ forest request.model elementType path)
    (responds : request.plain.respond (Query.ofProvider memory.provider elementType) token =
      .ok response) :
    (∀ rows, (∃ feature, request.respond (Query.ofProvider memory.provider elementType) token =
        .ok ⟨rows, feature⟩) ↔
      request.answerOnRecords (request.settings.bindingContext memory.provider.guardsNulls)
        response.rows = .ok rows) ∧
    ∀ kept levels, request.keptRecords (request.settings.bindingContext memory.provider.guardsNulls)
        response.rows = .ok kept →
      Binder.levels ⟨request.mapping.schema, request.model,
        request.settings.bindingContext memory.provider.guardsNulls⟩ request.options.order =
          .ok levels →
      (∀ level ∈ levels, ∃ kind, OrderLevel.HasKind response.rows kept level kind) →
      ∃ feature, request.respond (Query.ofProvider memory.provider elementType) token =
        .ok ⟨window request.options.skip request.options.top
          (OrderLevel.sortByLevels response.rows levels kept), feature⟩ := by
  obtain ⟨isSource, passes, agrees⟩ := answer_on_records noClause noPages built carries responds
  have answers := respond_iff_of_agrees token noSearch noPages within fits isSource passes agrees
  refine ⟨answers, fun kept levels isKept areLevels hasKinds => (answers _).2 ?_⟩
  exact answerOnRecords_of_hasKinds isKept areLevels hasKinds

end OnRecords

def peopleMapping : Mapping where
  schema := ⟨[
    ⟨"Person", .entity, none, [⟨"FullName", .scalar .string⟩, ⟨"Home", .nullable (.named "Home")⟩]⟩,
    ⟨"Home", .complex, none, [⟨"City", .scalar .string⟩]⟩,
    ⟨"Citizen", .entity, none, [⟨"Name", .scalar .string⟩, ⟨"City", .scalar .string⟩]⟩]⟩
  maps := [("Citizen", ⟨"Person", [("Name", .path ["FullName"]), ("City", .path ["Home", "City"])]⟩)]

def firstCitizen : Request :=
  ⟨peopleMapping, { RequestOptions.ofModel "Citizen" with
      filter := some (.compare (.member "City") .eq (.literal (.string "Oslo")))
      order := [⟨"Name", .ascending⟩]
      top := some 1 }, .standard⟩

def threePeople : MemoryRows :=
  ⟨[.record "Person" [("FullName", .string "Kari"), ("Home", .record "Home" [("City", .string "Oslo")])],
    .record "Person" [("FullName", .string "Alf"), ("Home", .null)],
    .record "Person" [("FullName", .string "Anne"), ("Home", .record "Home" [("City", .string "Oslo")])]],
    none⟩

def citizenForest : Forest :=
  ⟨[[⟨"Name", "Citizen", .scalar .string, .primitive, false, none, none⟩],
    [⟨"City", "Citizen", .scalar .string, .primitive, false, none, none⟩]], []⟩

theorem carries_citizen : ∀ path ∈ firstCitizen.paths, peopleMapping.Carries
    ⟨peopleMapping.schema, ⟨true, none⟩, 4⟩ citizenForest "Citizen" "Person" path := by
  intro path stands
  have named : path ∈ ["City", "Name"] := stands
  simp only [List.mem_cons, List.not_mem_nil, or_false] at named
  cases named with
  | inl isCity =>
    subst isCity
    exact ⟨[⟨"City", "Citizen", .scalar .string, .primitive, false, none, none⟩],
      by simp [citizenForest], by rfl, ⟨"City", .scalar .string⟩, by rfl, by simp⟩
  | inr isName =>
    subst isName
    exact ⟨[⟨"Name", "Citizen", .scalar .string, .primitive, false, none, none⟩],
      by simp [citizenForest], by rfl, ⟨"FullName", .scalar .string⟩, by rfl, by simp⟩

def citizen (name : String) (city : Value) : Value :=
  .record "Citizen" [("Name", .string name), ("City", city)]

def threeCitizens : List Value :=
  [citizen "Kari" (.string "Oslo"), citizen "Alf" .null, citizen "Anne" (.string "Oslo")]

def citizenName : OrderLevel :=
  ⟨.ascending, ⟨⟨elementName, .named "Citizen"⟩,
    .member (.parameter ⟨elementName, .named "Citizen"⟩) "Name" (.scalar .string)⟩⟩

theorem respond_on_records_first_citizen :
    firstCitizen.answerOnRecords ⟨true, none⟩ threeCitizens = .ok [citizen "Anne" (.string "Oslo")] ∧
      (∃ feature, firstCitizen.respond (Query.ofProvider threePeople.provider "Person") .idle =
        .ok ⟨[citizen "Anne" (.string "Oslo")], feature⟩) ∧
      ∃ feature, firstCitizen.respond (Query.ofProvider threePeople.provider "Person") .idle =
        .ok ⟨window none (some 1) (OrderLevel.sortByLevels threeCitizens [citizenName]
          [citizen "Kari" (.string "Oslo"), citizen "Anne" (.string "Oslo")]), feature⟩ := by
  have responds : firstCitizen.plain.respond (Query.ofProvider threePeople.provider "Person") .idle =
      .ok ⟨threeCitizens, .fresh⟩ := by rfl
  have answered : firstCitizen.answerOnRecords ⟨true, none⟩ threeCitizens =
      .ok [citizen "Anne" (.string "Oslo")] := by rfl
  have hasKinds : ∀ level ∈ [citizenName], ∃ kind, OrderLevel.HasKind threeCitizens
      [citizen "Kari" (.string "Oslo"), citizen "Anne" (.string "Oslo")] level kind := by
    refine List.forall_mem_cons.2 ⟨⟨.string, ?_⟩, by simp⟩
    simp only [OrderLevel.HasKind, List.forall_mem_cons]
    exact ⟨⟨_, rfl, .inr (.string _)⟩, ⟨_, rfl, .inr (.string _)⟩, by simp⟩
  obtain ⟨answers, sorts⟩ := respond_on_records rfl rfl rfl rfl
    (by simp [Arrangement.Fits, firstCitizen, RequestOptions.ofModel]) rfl carries_citizen responds
  exact ⟨answered, (answers _).2 answered, sorts _ _ (by rfl) (by rfl) hasKinds⟩

end Request

end QueryProjection
