import QueryProjection.Proofs.Request.Answer
import QueryProjection.Run.Request

set_option autoImplicit false

namespace QueryProjection

open Outcome

namespace Run

def Computes {α : Type} (run : Run α) (start : Feature) (outcome : Outcome (α × Feature)) : Prop :=
  ∀ state : RunState, state.feature = start →
    match outcome with
    | .ok (value, feature) =>
        ∃ state', run.run state = .ok value state' ∧ state'.feature = feature
    | .error cause => ∃ state', run.run state = .error (.refused cause) state'

variable {α β : Type}

theorem Computes.pure (start : Feature) (value : α) : Computes (pure value) start (.ok (value, start)) :=
  fun state same => ⟨state, rfl, same⟩

theorem Computes.ofOutcome (start : Feature) (outcome : Outcome α) :
    Computes (Run.ofOutcome outcome) start (outcome >>= fun value => .ok (value, start)) := by
  intro state same
  cases outcome with
  | ok value => exact ⟨state, rfl, same⟩
  | error cause => exact ⟨state, rfl⟩

theorem Computes.record (start : Feature) (change : Feature → Feature) :
    Computes (Run.record change) start (.ok ((), change start)) := by
  intro state same
  exact ⟨_, rfl, congrArg change same⟩

theorem Computes.ask (start : Feature) (call : ProviderCall) (outcome : Outcome α) :
    Computes (Run.ask false call (.immediate outcome)) start
      (outcome >>= fun value => .ok (value, start)) := by
  intro state same
  cases outcome with
  | ok value => exact ⟨_, rfl, same⟩
  | error cause => exact ⟨_, rfl⟩

theorem Computes.of_ran {run : Run α} {before after : RunState} {value : α}
    {outcome : Outcome (α × Feature)} (computes : Computes run before.feature outcome)
    (ran : run.run before = .ok value after) : outcome = .ok (value, after.feature) := by
  have reached := computes before rfl
  cases outcome with
  | error cause => simp [ran] at reached
  | ok result =>
    obtain ⟨after', same, isRecorded⟩ := reached
    cases ran.symm.trans same
    rw [isRecorded]

theorem Computes.bind {start : Feature} {run : Run α} {outcome : Outcome (α × Feature)}
    (first : Computes run start outcome) (next : α → Run β)
    (outcome' : α × Feature → Outcome (β × Feature))
    (then_ : ∀ value feature, outcome = .ok (value, feature) →
      Computes (next value) feature (outcome' (value, feature))) :
    Computes (run >>= next) start (outcome >>= outcome') := by
  intro state same
  have reached := first state same
  cases outcome with
  | error cause =>
    obtain ⟨state', failed⟩ := reached
    refine ⟨state', ?_⟩
    simp only [EStateM.run, Bind.bind, EStateM.bind] at failed ⊢
    rw [failed]
  | ok result =>
    obtain ⟨value, feature⟩ := result
    obtain ⟨state', succeeded, recorded⟩ := reached
    have later := then_ value feature rfl state' recorded
    have same : (run >>= next).run state = (next value).run state' := by
      simp only [EStateM.run, Bind.bind, EStateM.bind] at succeeded ⊢
      rw [succeeded]
    simp only [ok_bind]
    rw [same]
    exact later

end Run

structure Response where
  rows : List Value
  feature : Feature

namespace Request

def respond (request : Request) (query : Query) (token : Token) : Except Halt Response :=
  match (request.rows query).run ⟨token, .fresh, []⟩ with
  | .ok rows state => .ok ⟨rows, state.feature⟩
  | .error halt _ => .error halt

def recordedOver (request : Request) (before : Feature) (count : Option Nat) : Feature :=
  Feature.withNextPage
    { before with totalCount := if request.options.count then count else before.totalCount }
    request.options.uri (request.nextPage? count)

def recorded (request : Request) (count : Option Nat) : Feature :=
  Feature.withNextPage ⟨if request.options.count then count else none, none, none⟩
    request.options.uri (request.nextPage? count)

def countRows (request : Request) (filtered : FilteredRequest) (memory : MemoryRows) :
    Outcome (Option Nat) :=
  if request.needsCount then do return some (← memory.count filtered.query.expression)
  else .ok none

def responseOver (request : Request) (memory : MemoryRows) (elementType : String) :
    Outcome Response := do
  let filtered ← request.applyFilter (Query.ofProvider memory.provider elementType)
  let count ← request.countRows filtered memory
  let projected ← filtered.projected
  let rows ← memory.execute projected.expression
  return ⟨rows, request.recorded count⟩

theorem applyFilter_eq_ok {request : Request} {query : Query} {filtered : FilteredRequest}
    (applied : request.applyFilter query = .ok filtered) :
    request.settings.limits.check request.options = .ok () ∧
      checkSearch request.options.search = .ok () ∧
      filtered.request = request ∧
      filtered.context = request.settings.bindingContext query.provider.guardsNulls ∧
      request.sourceType query = .ok filtered.sourceType ∧
      ∃ expression, request.filtered filtered.context filtered.sourceType query.expression =
        .ok expression ∧ filtered.query = { query with expression } := by
  simp only [applyFilter, bind_eq_ok, pure_eq_ok] at applied
  obtain ⟨⟨⟩, limits, ⟨⟩, search, sourceType, isSource, expression, isFiltered, rfl⟩ := applied
  exact ⟨limits, search, rfl, rfl, isSource, expression, isFiltered, rfl⟩

theorem applied_of_applyFilter {request : Request} {provider : Provider} {elementType : String}
    {filtered : FilteredRequest}
    (applied : request.applyFilter (Query.ofProvider provider elementType) = .ok filtered) :
    filtered.Applied := by
  obtain ⟨-, -, same, -, -, expression, isFiltered, isQuery⟩ := applyFilter_eq_ok applied
  refine ⟨elementType, ?_⟩
  rw [same, isQuery]
  exact isFiltered

theorem provider_of_projected {filtered : FilteredRequest} {query : Query}
    (projected : filtered.projected = .ok query) : query.provider = filtered.query.provider := by
  simp only [FilteredRequest.projected, bind_eq_ok, pure_eq_ok] at projected
  obtain ⟨_, _, _, _, _, _, _, _, _, _, rfl⟩ := projected
  rfl

theorem countIf_computes (request : Request) {filtered : FilteredRequest} {memory : MemoryRows}
    (provided : filtered.query.provider = memory.provider) (start : Feature) :
    Run.Computes (countIf request.needsCount filtered.query.count) start
      (request.countRows filtered memory >>= fun count => .ok (count, start)) := by
  unfold countIf countRows
  split
  next =>
    have asked := Run.Computes.ask start (.count filtered.query.expression)
      (memory.count filtered.query.expression)
    have mapped := asked.bind (fun count => pure (some count))
      (fun step => .ok (some step.1, step.2)) fun count feature _ => .pure feature (some count)
    unfold Query.count
    rw [provided, map_eq_pure_bind]
    simp only [bind_assoc, ok_bind] at mapped ⊢
    exact mapped
  next => exact .pure start none

theorem conclude_computes (filtered : FilteredRequest) (count : Option Nat) (start : Feature) :
    Run.Computes (conclude filtered count) start
      (filtered.projected >>= fun query =>
        .ok (query, filtered.request.recordedOver start count)) := by
  -- What is left to do once the count has been recorded, or where it is not asked for.
  have finished (start : Feature) : Run.Computes (do
      let query ← Run.ofOutcome filtered.projected
      Run.record fun feature =>
        feature.withNextPage filtered.request.options.uri (filtered.request.nextPage? count)
      return query) start (filtered.projected >>= fun query => .ok (query,
        start.withNextPage filtered.request.options.uri (filtered.request.nextPage? count))) := by
    have computed := (Run.Computes.ofOutcome start filtered.projected).bind
      (fun query => do
        Run.record fun feature =>
          feature.withNextPage filtered.request.options.uri (filtered.request.nextPage? count)
        return query)
      (fun step => .ok (step.1, step.2.withNextPage filtered.request.options.uri
        (filtered.request.nextPage? count)))
      fun query feature _ => (Run.Computes.record feature _).bind (fun _ => return query)
        (fun step => .ok (query, step.2)) fun _ feature _ => .pure feature query
    simpa only [bind_assoc, ok_bind] using computed
  unfold conclude Request.recordedOver
  cases counts : filtered.request.options.count with
  | true =>
    have computed := (Run.Computes.record start fun feature =>
      { feature with totalCount := count }).bind _ (fun step =>
        filtered.projected >>= fun query => .ok (query, step.2.withNextPage
          filtered.request.options.uri (filtered.request.nextPage? count)))
      fun _ feature _ => finished feature
    simp only [counts, if_true]
    exact computed
  | false =>
    simp only [counts, Bool.false_eq_true, if_false]
    exact finished start

theorem project_computes (request : Request) {memory : MemoryRows} {query : Query}
    (provided : query.provider = memory.provider) (start : Feature) :
    Run.Computes (request.project query) start (request.applyFilter query >>= fun filtered =>
      request.countRows filtered memory >>= fun count =>
        filtered.projected >>= fun projected => .ok (projected, request.recordedOver start count)) := by
  have computed := (Run.Computes.ofOutcome start (request.applyFilter query)).bind
    (fun filtered => countIf request.needsCount filtered.query.count >>= conclude filtered)
    (fun step => request.countRows step.1 memory >>= fun count =>
      step.1.projected >>= fun projected => .ok (projected, request.recordedOver start count)) ?_
  · simp only [bind_assoc, ok_bind] at computed
    exact computed
  · -- The filtered request is the request itself, so both agree on what is recorded.
    intro filtered feature reached
    obtain ⟨filtered', applied, same⟩ := bind_eq_ok.1 reached
    cases same
    obtain ⟨-, -, sameRequest, -, -, expression, -, isQuery⟩ := applyFilter_eq_ok applied
    have providedFiltered : filtered.query.provider = memory.provider := by rw [isQuery, provided]
    have concluded := (countIf_computes request providedFiltered start).bind (conclude filtered)
      (fun step => filtered.projected >>= fun projected =>
        .ok (projected, request.recordedOver start step.1)) ?_
    · simpa only [bind_assoc, ok_bind] using concluded
    · intro count feature reached
      obtain ⟨count', -, same⟩ := bind_eq_ok.1 reached
      cases same
      have computed := conclude_computes filtered count start
      rwa [sameRequest] at computed

theorem rows_computes (request : Request) (memory : MemoryRows) (elementType : String) :
    Run.Computes (request.rows (Query.ofProvider memory.provider elementType)) .fresh
      (request.responseOver memory elementType >>= fun response =>
        .ok (response.rows, response.feature)) := by
  have projects := project_computes request
    (rfl : (Query.ofProvider memory.provider elementType).provider = memory.provider) .fresh
  have listed := projects.bind Query.toList (fun step =>
    memory.execute step.1.expression >>= fun rows => .ok (rows, step.2)) ?_
  · unfold responseOver
    simp only [bind_assoc, ok_bind, pure_bind] at listed ⊢
    exact listed
  · intro query feature reached
    obtain ⟨filtered, applied, counted⟩ := bind_eq_ok.1 reached
    obtain ⟨count, -, made⟩ := bind_eq_ok.1 counted
    obtain ⟨query', projected, same⟩ := bind_eq_ok.1 made
    cases same
    obtain ⟨-, -, -, -, -, expression, -, isQuery⟩ := applyFilter_eq_ok applied
    have provided : query.provider = memory.provider := by
      rw [provider_of_projected projected, isQuery]
      rfl
    unfold Query.toList
    rw [provided]
    exact Run.Computes.ask _ _ (memory.execute query.expression)

theorem respond_eq (request : Request) (memory : MemoryRows) (elementType : String)
    (token : Token) :
    request.respond (Query.ofProvider memory.provider elementType) token =
      (request.responseOver memory elementType).mapError Halt.refused := by
  have computes := rows_computes request memory elementType ⟨token, .fresh, []⟩ rfl
  unfold respond
  cases computed : request.responseOver memory elementType with
  | error cause =>
    rw [computed] at computes
    obtain ⟨state, failed⟩ := computes
    rw [failed]
    rfl
  | ok response =>
    rw [computed] at computes
    obtain ⟨state, succeeded, recorded⟩ := computes
    rw [succeeded]
    exact congrArg (fun feature => Except.ok (Response.mk response.rows feature)) recorded

end Request

end QueryProjection
