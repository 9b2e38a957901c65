import Mathlib.Data.List.Forall2
import QueryProjection.Proofs.Request.Response

set_option autoImplicit false

namespace QueryProjection

open Outcome Evaluation

namespace Evaluation

theorem mapItems_take {selector : Value → Outcome Value} {items values : List Value}
    (mapped : mapItems selector items = .ok values) (number : Nat) :
    mapItems selector (items.take number) = .ok (values.take number) :=
  mapItems_eq_ok.2 (List.forall₂_take number (mapItems_eq_ok.1 mapped))

theorem mapItems_drop {selector : Value → Outcome Value} {items values : List Value}
    (mapped : mapItems selector items = .ok values) (number : Nat) :
    mapItems selector (items.drop number) = .ok (values.drop number) :=
  mapItems_eq_ok.2 (List.forall₂_drop number (mapItems_eq_ok.1 mapped))

theorem mapItems_length {selector : Value → Outcome Value} {items values : List Value}
    (mapped : mapItems selector items = .ok values) : values.length = items.length :=
  (mapItems_eq_ok.1 mapped).length_eq.symm

variable {α : Type}

theorem window_page (skip top : Option Nat) (size : Nat) (items : List α) :
    window skip (some (match top with | some limit => min limit size | none => size)) items =
      (window skip top items).take size := by
  cases top with
  | none => rfl
  | some limit => simp [window, List.take_take, Nat.min_comm]

theorem window_next (skip top : Option Nat) (size : Nat) (items : List α) :
    window (some (skip.getD 0 + size)) (top.map fun limit => limit - size) items =
      (window skip top items).drop size := by
  cases top with
  | none => simp [window, List.drop_drop]
  | some limit => simp [window, List.drop_take, List.drop_drop]

theorem window_length (skip top : Option Nat) (items : List α) :
    (window skip top items).length =
      match top with
      | some limit => min (items.length - skip.getD 0) limit
      | none => items.length - skip.getD 0 := by
  cases top with
  | none => simp [window]
  | some limit => simp [window, Nat.min_comm]

end Evaluation

theorem Feature.nextPage?_window {α : Type} (skip top : Option Nat) (size : Nat) (items : List α) :
    Feature.nextPage? skip top size items.length =
      if (window skip top items).length ≤ size then none
      else some ⟨skip.getD 0 + size, top.map fun limit => limit - size⟩ := by
  rw [window_length]
  cases top with
  | none => simp [Feature.nextPage?, NextPage.after]
  | some limit =>
    simp only [Feature.nextPage?, NextPage.after]
    split
    next => rfl
    next more =>
      have large : ¬ limit ≤ size := by omega
      simp [large]

namespace Request

def windowed (request : Request) (skip top size : Option Nat) : Request :=
  { request with
    options := { request.options with skip, top }
    settings := { request.settings with configuredPageSize := size } }

def withPageSize (request : Request) (size : Option Nat) : Request :=
  request.windowed request.options.skip request.options.top size

def continuedBy (request : Request) (next : NextPage) : Request :=
  { request with options := { request.options with skip := some next.skip, top := next.top } }

def rowsPassing (request : Request) (memory : MemoryRows) (elementType : String) :
    Outcome (List Value) := do
  let sourceType ← request.sourceType (Query.ofProvider memory.provider elementType)
  request.passing (request.settings.bindingContext memory.provider.guardsNulls) sourceType
    memory.rows

theorem length_rowsPassing_le {request : Request} {memory : MemoryRows} {elementType : String}
    {passing : List Value} (passes : request.rowsPassing memory elementType = .ok passing) :
    passing.length ≤ memory.rows.length := by
  obtain ⟨sourceType, -, passes⟩ := bind_eq_ok.1 passes
  unfold Request.passing at passes
  split at passes
  next =>
    simp only [Except.ok.injEq] at passes
    exact passes ▸ Nat.le_refl _
  next =>
    obtain ⟨predicate, -, passes⟩ := bind_eq_ok.1 passes
    obtain ⟨mapped, -, kept⟩ := bind_eq_ok.1 passes
    exact itemsWhere_length_le kept

variable {request : Request} {memory : MemoryRows} {elementType : String} {token : Token}

theorem respond_eq_ok {response : Response} :
    request.respond (Query.ofProvider memory.provider elementType) token = .ok response ↔
      request.responseOver memory elementType = .ok response := by
  rw [respond_eq]
  cases request.responseOver memory elementType <;> simp [Except.mapError]

theorem pageSize_windowed (skip top : Option Nat) {size : Nat} (positive : 0 < size) :
    (request.windowed skip top (some size)).settings.pageSize = some size := by
  simp [Settings.pageSize, windowed, Option.filter, positive]

theorem take_unpaged (skip top : Option Nat) : (request.windowed skip top none).take = top := by
  cases top <;> rfl

theorem take_windowed (request : Request) (skip top : Option Nat) {size : Nat} (positive : 0 < size) :
    (request.windowed skip top (some size)).take =
      some (match top with | some limit => min limit size | none => size) := by
  unfold take
  rw [pageSize_windowed skip top positive]
  cases top <;> rfl

theorem nextPage?_windowed (skip top : Option Nat) {size : Nat} (positive : 0 < size)
    (count : Nat) :
    (request.windowed skip top (some size)).nextPage? (some count) =
      Feature.nextPage? skip top size count := by
  unfold nextPage?
  rw [pageSize_windowed skip top positive]
  rfl

theorem applyFilter_of (request : Request) {query : Query} {sourceType : String} {expression : Expr}
    (limits : request.settings.limits.check request.options = .ok ())
    (search : checkSearch request.options.search = .ok ())
    (source : request.sourceType query = .ok sourceType)
    (isFiltered : request.filtered (request.settings.bindingContext query.provider.guardsNulls)
      sourceType query.expression = .ok expression) :
    request.applyFilter query = .ok ⟨request,
      request.settings.bindingContext query.provider.guardsNulls, sourceType,
      { query with expression }⟩ := by
  simp only [applyFilter, limits, search, source, isFiltered, ok_bind]
  rfl

theorem answer_eq_ok {filtered : FilteredRequest} {provided rows : List Value} :
    filtered.answer provided = .ok rows ↔
      ∃ levels selector passing ordered,
        filtered.request.levels filtered.context = .ok levels ∧ filtered.selector = .ok selector ∧
        filtered.request.passing filtered.context filtered.sourceType provided = .ok passing ∧
        orderItems (levels.map (OrderLevel.sortKey provided [])) passing = .ok ordered ∧
        mapItems (selector.valueOn provided)
          (window filtered.request.options.skip filtered.request.take ordered) = .ok rows := by
  simp only [FilteredRequest.answer, arrangeItems, bind_eq_ok, pure_eq_ok]
  constructor
  · rintro ⟨levels, areLevels, selector, selects, passing, passes, _, ⟨ordered, sorted, rfl⟩, mapped⟩
    exact ⟨levels, selector, passing, ordered, areLevels, selects, passes, sorted, mapped⟩
  · rintro ⟨levels, selector, passing, ordered, areLevels, selects, passes, sorted, mapped⟩
    exact ⟨levels, areLevels, selector, selects, passing, passes, _, ⟨ordered, sorted, rfl⟩, mapped⟩

theorem respond_windowed {skip top : Option Nat} {rows : List Value} {feature : Feature}
    (unpaged : (request.windowed skip top none).respond
      (Query.ofProvider memory.provider elementType) token = .ok ⟨rows, feature⟩) :
    ∃ (passing ordered : List Value) (selector : Lambda),
      request.rowsPassing memory elementType = .ok passing ∧ ordered.length = passing.length ∧
      mapItems (selector.valueOn memory.rows) (window skip top ordered) = .ok rows ∧
      ∀ (skip' top' : Option Nat) (size : Nat) (page : List Value), 0 < size → size < 2 ^ 63 →
        request.settings.limits.check { request.options with skip := skip', top := top' } = .ok () →
        (∀ number ∈ skip', number < 2 ^ 63) →
        mapItems (selector.valueOn memory.rows) ((window skip' top' ordered).take size) = .ok page →
        (request.windowed skip' top' (some size)).respond
            (Query.ofProvider memory.provider elementType) token =
          .ok ⟨page, (request.windowed skip' top' (some size)).recorded (some passing.length)⟩ := by
  simp only [respond_eq_ok, responseOver, bind_eq_ok, pure_eq_ok, Response.mk.injEq] at unpaged
  obtain ⟨filtered, isApplied, count, -, query, projected, rows, executed, rfl, -⟩ := unpaged
  have applied := applied_of_applyFilter isApplied
  have answered := (FilteredRequest.projected_execute applied memory
    (FilteredRequest.fits_of_projected applied projected)).eq_ok_iff rows |>.1
    (by rw [projected]; exact executed)
  obtain ⟨-, search, same, isContext, isSource, expression, isFiltered, isQuery⟩ :=
    applyFilter_eq_ok isApplied
  obtain ⟨_, context, sourceType, query'⟩ := filtered
  subst same isContext isQuery
  obtain ⟨levels, selector, passing, ordered, areLevels, selects, passes, sorted, mapped⟩ :=
    answer_eq_ok.1 answered
  rw [take_unpaged] at mapped
  have rowsPass : request.rowsPassing memory elementType = .ok passing :=
    bind_eq_ok.2 ⟨sourceType, isSource, passes⟩
  -- Filter, order and selector are those of the unpaged run. Only the window is another one.
  refine ⟨passing, ordered, selector, rowsPass, (orderItems_perm sorted).length_eq, mapped, ?_⟩
  intro skip' top' size page positive fits accepted skips mappedPage
  have isPaged := applyFilter_of (request.windowed skip' top' (some size)) accepted search isSource
    isFiltered
  have appliedPaged := applied_of_applyFilter isPaged
  have counted := (FilteredRequest.count_filtered appliedPaged memory).eq_ok_iff passing.length |>.2
    (bind_eq_ok.2 ⟨passing, passes, rfl⟩)
  have needed : (request.windowed skip' top' (some size)).needsCount = true := by
    simp [needsCount, pageSize_windowed skip' top' positive]
  -- Without a limit of the request it is the page size that has to fit.
  have fitsTake : ∀ number ∈ (request.windowed skip' top' (some size)).take, number < 2 ^ 63 := by
    rw [take_windowed request skip' top' positive]
    intro number isTake
    rw [Option.mem_some_iff] at isTake
    subst isTake
    cases top' with
    | none => exact fits
    | some limit =>
      have within : min limit size ≤ size := Nat.min_le_right _ _
      exact Nat.lt_of_le_of_lt within fits
  rw [← window_page, ← take_windowed request skip' top' positive] at mappedPage
  obtain ⟨queryPaged, projectedPaged, executedPaged⟩ := bind_eq_ok.1
    ((FilteredRequest.projected_execute appliedPaged memory ⟨skips, fitsTake⟩).eq_ok_iff page |>.2
      (answer_eq_ok.2 ⟨levels, selector, passing, ordered, areLevels, selects, passes, sorted,
        mappedPage⟩))
  simp only [respond_eq_ok, responseOver, isPaged, countRows, needed, if_true, counted,
    projectedPaged, executedPaged, ok_bind]
  rfl

theorem nextPage_recorded (request : Request) (count : Option Nat) :
    (request.recorded count).nextPage = request.nextPage? count := by
  unfold recorded Feature.withNextPage
  split
  next next isNext => simp [isNext]
  next isLast => simp [isLast]

theorem totalCount_recorded (request : Request) (count : Option Nat) :
    (request.recorded count).totalCount = if request.options.count then count else none := by
  unfold recorded Feature.withNextPage
  split <;> rfl

/-- A request whose responses lead to another one, page by page. -/
inductive LeadsTo (query : Query) (token : Token) : Request → Request → Prop where
  | next {request : Request} {response : Response} {next : NextPage}
      (responds : request.respond query token = .ok response)
      (recorded : response.feature.nextPage = some next) :
      LeadsTo query token request (request.continuedBy next)
  | later {request last : Request} {response : Response} {next : NextPage}
      (responds : request.respond query token = .ok response)
      (recorded : response.feature.nextPage = some next)
      (leads : LeadsTo query token (request.continuedBy next) last) :
      LeadsTo query token request last

/-- A request and those that its responses lead to, until no page follows. -/
inductive PagingRun (query : Query) (token : Token) : Request → List Response → Prop where
  | last {request : Request} {response : Response}
      (responds : request.respond query token = .ok response)
      (recorded : response.feature.nextPage = none) : PagingRun query token request [response]
  | more {request : Request} {response : Response} {next : NextPage} {rest : List Response}
      (responds : request.respond query token = .ok response)
      (recorded : response.feature.nextPage = some next)
      (continues : PagingRun query token (request.continuedBy next) rest) :
      PagingRun query token request (response :: rest)

theorem PagingRun.nonempty {query : Query} {run : List Response}
    (isRun : PagingRun query token request run) : run ≠ [] := by
  cases isRun <;> simp

/-- Full pages, together holding some rows, each of which tells whether rows follow. -/
structure ReadsAll (size : Nat) (rows : List Value) (run : List Response) : Prop where
  together : run.flatMap Response.rows = rows
  full : ∀ response ∈ run.dropLast, response.rows.length = size
  follows : ∀ before response after, run = before ++ response :: after →
    (response.feature.nextPage.isSome ↔
      ((before ++ [response]).flatMap Response.rows).length < rows.length)

theorem ReadsAll.last {size : Nat} (response : Response)
    (recorded : response.feature.nextPage = none) : ReadsAll size response.rows [response] where
  together := by simp
  full := by simp
  follows before other after split_ := by
    have length := congrArg List.length split_
    simp only [List.length_append, List.length_cons, List.length_nil] at length
    have first : before = [] := List.eq_nil_of_length_eq_zero (by omega)
    subst first
    cases split_
    simp [recorded]

theorem ReadsAll.more {size : Nat} {rows : List Value} {run : List Response}
    (reads : ReadsAll size rows run) (response : Response) (some_ : run ≠ []) (remain : rows ≠ [])
    (full : response.rows.length = size) (recorded : response.feature.nextPage.isSome) :
    ReadsAll size (response.rows ++ rows) (response :: run) where
  together := by simp [reads.together]
  full := by
    obtain ⟨next, rest, rfl⟩ := List.exists_cons_of_ne_nil some_
    rw [List.dropLast_cons_cons]
    exact List.forall_mem_cons.2 ⟨full, reads.full⟩
  follows before other after split_ := by
    cases before with
    | nil =>
      cases split_
      have more : 0 < rows.length := List.length_pos_iff.2 remain
      simp [recorded, more]
    | cons first before =>
      simp only [List.cons_append, List.cons.injEq] at split_
      obtain ⟨rfl, split_⟩ := split_
      rw [reads.follows before other after split_]
      simp

theorem exists_pagingRun (request : Request) {query : Query} {size : Nat} {ordered : List Value} {selector : Lambda}
    {provided : List Value} (positive : 0 < size)
    (responds : ∀ (skip top : Option Nat) (page : List Value),
      request.settings.limits.check { request.options with skip, top } = .ok () →
      (∀ number ∈ skip, number < 2 ^ 63) →
      mapItems (selector.valueOn provided) ((window skip top ordered).take size) = .ok page →
      (request.windowed skip top (some size)).respond query token =
        .ok ⟨page, (request.windowed skip top (some size)).recorded (some ordered.length)⟩)
    (skip top : Option Nat) (rows : List Value)
    (mapped : mapItems (selector.valueOn provided) (window skip top ordered) = .ok rows)
    (limits : request.settings.limits.check { request.options with skip, top } = .ok ())
    (skips : ∀ number ∈ skip, number < 2 ^ 63)
    (accepted : ∀ later, LeadsTo query token (request.windowed skip top (some size)) later →
      later.settings.limits.check later.options = .ok () ∧
        ∀ number ∈ later.options.skip, number < 2 ^ 63) :
    ∃ run, PagingRun query token (request.windowed skip top (some size)) run ∧
      ReadsAll size rows run ∧
      ∀ response ∈ run,
        response.feature.totalCount =
          (if request.options.count then some ordered.length else none) ∧
        ∀ next ∈ response.feature.nextPage, next.skip < ordered.length := by
  -- Every request but the last leaves fewer rows for those that follow.
  induction fewer : rows.length using Nat.strongRecOn generalizing skip top rows with
  | ind count ih =>
    subst fewer
    have response := responds skip top (rows.take size) limits skips (mapItems_take mapped size)
    have length := mapItems_length mapped
    have next := nextPage_recorded (request.windowed skip top (some size)) (some ordered.length)
    rw [nextPage?_windowed skip top positive, Feature.nextPage?_window, ← length] at next
    have total := totalCount_recorded (request.windowed skip top (some size)) (some ordered.length)
    by_cases fits : rows.length ≤ size
    · rw [if_pos fits] at next
      rw [List.take_of_length_le fits] at response
      refine ⟨_, .last response next, ReadsAll.last ⟨rows, _⟩ next, ?_⟩
      simp only [List.mem_singleton, forall_eq, next]
      exact ⟨total, by simp⟩
    · rw [if_neg fits] at next
      have leads := LeadsTo.next response next
      obtain ⟨limitsNext, skipsNext⟩ := accepted _ leads
      have mappedNext := mapItems_drop mapped size
      rw [← window_next] at mappedNext
      have shorter : (rows.drop size).length < rows.length := by
        rw [List.length_drop]
        omega
      obtain ⟨run, isRun, reads, facts⟩ := ih _ shorter _ _ _ mappedNext limitsNext skipsNext
        (fun later leadsLater => accepted later (.later response next leadsLater)) rfl
      have remain : rows.drop size ≠ [] := by
        intro none_
        have length := congrArg List.length none_
        rw [List.length_drop, List.length_nil] at length
        omega
      have full : (rows.take size).length = size := by
        rw [List.length_take]
        omega
      have readsAll := reads.more ⟨rows.take size, _⟩ isRun.nonempty remain full
        (by rw [next]; rfl)
      rw [List.take_append_drop] at readsAll
      refine ⟨_, .more response next isRun, readsAll, ?_⟩
      refine List.forall_mem_cons.2 ⟨⟨total, ?_⟩, facts⟩
      intro page isPage
      rw [next, Option.mem_some_iff] at isPage
      subst isPage
      rw [window_length] at length
      have wide : size < ordered.length - skip.getD 0 := by
        cases top with
        | none => dsimp only at length; omega
        | some limit => dsimp only at length; omega
      show skip.getD 0 + size < ordered.length
      omega

/-- Requests for one page after the other lose no row and repeat none. -/
theorem paging_reads_all {request : Request} {memory : MemoryRows} {elementType : String}
    {token : Token} {size : Nat} {rows : List Value} {feature : Feature}
    (positive : 1 ≤ size) (fits : size < 2 ^ 63)
    (unpaged : (request.withPageSize none).respond
      (Query.ofProvider memory.provider elementType) token = .ok ⟨rows, feature⟩)
    (accepted : ∀ later, LeadsTo (Query.ofProvider memory.provider elementType) token
        (request.withPageSize (some size)) later →
      later.settings.limits.check later.options = .ok () ∧
        ∀ number ∈ later.options.skip, number < 2 ^ 63) :
    ∃ run passing, PagingRun (Query.ofProvider memory.provider elementType) token
        (request.withPageSize (some size)) run ∧
      ReadsAll size rows run ∧
      request.rowsPassing memory elementType = .ok passing ∧
      (request.options.count = true →
        ∀ response ∈ run, response.feature.totalCount = some passing.length) ∧
      ∀ response ∈ run, ∀ next ∈ response.feature.nextPage, next.skip < memory.rows.length := by
  obtain ⟨passing, ordered, selector, passes, length, mapped, responds⟩ := respond_windowed unpaged
  have applied := unpaged
  simp only [respond_eq_ok, responseOver, bind_eq_ok] at applied
  obtain ⟨filtered, applied, count, -, query, projected, -⟩ := applied
  obtain ⟨limits, -, same, -⟩ := applyFilter_eq_ok applied
  have skips := (FilteredRequest.fits_of_projected (applied_of_applyFilter applied) projected).1
  rw [same] at skips
  obtain ⟨run, isRun, reads, facts⟩ := exists_pagingRun request positive
    (fun skip top page limits skips mappedPage => by
      have response := responds skip top size page positive fits limits skips mappedPage
      rwa [← length] at response)
    request.options.skip request.options.top rows mapped limits skips accepted
  refine ⟨run, passing, isRun, reads, passes, ?_, ?_⟩
  · intro counts response member
    rw [(facts response member).1, if_pos counts, length]
  · intro response member next isNext
    have within := (facts response member).2 next isNext
    have few := length_rowsPassing_le passes
    omega

def numberSchema : Schema :=
  ⟨[⟨"Number", .entity, none, [⟨"Value", .scalar .int32⟩]⟩]⟩

def allNumbers : Request :=
  ⟨.ofSchema numberSchema,
    { RequestOptions.ofModel "Number" with order := [⟨"Value", .descending⟩], count := true },
    .standard⟩

def threeNumbers : MemoryRows :=
  ⟨[1, 2, 3].map fun number => .record "Number" [("Value", .int number)], none⟩

def numbers : Query := Query.ofProvider threeNumbers.provider "Number"

theorem nextPage_of_respond (request : Request) (next? : Option NextPage)
    (known : (request.respond numbers .idle).toOption.any
      (fun response => response.feature.nextPage == next?) = true)
    (response : Response) (responds : request.respond numbers .idle = .ok response) :
    response.feature.nextPage = next? := by
  obtain ⟨response', responds', same⟩ := exists_of_toOption_any _ _ known
  cases responds.symm.trans responds'
  exact beq_iff_eq.1 same

def numbersAboveOne : Request :=
  { allNumbers with
    options := { allNumbers.options with
      filter := some (.compare (.member "Value") .gt (.literal (.number ⟨1, 0⟩))) } }

theorem paging_reads_numbers_above_one :
    ∃ rows run, rows.length = 2 ∧
      PagingRun numbers .idle (numbersAboveOne.withPageSize (some 1)) run ∧ ReadsAll 1 rows run ∧
      ∀ response ∈ run, response.feature.totalCount = some 2 := by
  obtain ⟨⟨rows, feature⟩, unpaged, two⟩ := exists_of_toOption_any
    ((numbersAboveOne.withPageSize none).respond numbers .idle)
    (fun response => response.rows.length == 2) (by rfl)
  have first := nextPage_of_respond (numbersAboveOne.withPageSize (some 1)) (some ⟨1, none⟩)
    (by rfl)
  have second := nextPage_of_respond ((numbersAboveOne.withPageSize (some 1)).continuedBy ⟨1, none⟩) none
    (by rfl)
  have pass : numbersAboveOne.rowsPassing threeNumbers "Number" =
      .ok ([2, 3].map fun number => .record "Number" [("Value", .int number)]) := by rfl
  obtain ⟨run, passing, isRun, reads, passes, counts, -⟩ :=
    paging_reads_all (by decide : 1 ≤ 1) (by decide) unpaged (by
      intro later leads
      cases leads with
      | next responds recorded =>
        cases recorded.symm.trans (first _ responds)
        exact ⟨rfl, by simp [continuedBy, withPageSize, windowed]⟩
      | later responds recorded leads =>
        cases recorded.symm.trans (first _ responds)
        cases leads with
        | next responds recorded => simp [second _ responds] at recorded
        | later responds recorded _ => simp [second _ responds] at recorded)
  cases pass.symm.trans passes
  exact ⟨rows, run, beq_iff_eq.1 two, isRun, reads, counts rfl⟩

end Request

end QueryProjection
