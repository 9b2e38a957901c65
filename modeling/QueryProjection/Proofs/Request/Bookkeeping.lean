import QueryProjection.Proofs.Request.Paging
import QueryProjection.Proofs.Request.Calls

set_option autoImplicit false

namespace QueryProjection

open Outcome Evaluation

/-- How many rows the options ask for when a number of rows pass the filter. -/
def RequestOptions.wanted (options : RequestOptions) (passing : Nat) : Nat :=
  match options.top with
  | some top => min (passing - options.skip.getD 0) top
  | none => passing - options.skip.getD 0

namespace Request

def keptRows (request : Request) (memory : MemoryRows) (query : Query) : Outcome (List Value) := do
  let sourceType ← request.sourceType query
  let rows ← memory.execute query.expression
  match request.options.filter with
  | none => return rows
  | some filter => do
      let predicate ← filter.bind request.mapping.schema request.model
        (request.settings.bindingContext memory.provider.guardsNulls)
      let mapped ← request.mapping.predicateToSource predicate sourceType
      itemsWhere (mapped.valueOn memory.rows) rows

/-- A page size is in force, and the request asks for more rows than a page has. -/
def PageFollows (request : Request) (kept : Outcome (List Value)) : Prop :=
  ∃ size rows, request.settings.pageSize = some size ∧ kept = .ok rows ∧
    size < request.options.wanted rows.length

/-- The total count is that of the run, if the request asks for one. -/
structure CountDescribed (request : Request) (kept : Outcome (List Value)) (feature : Feature) :
    Prop where
  asked : request.options.count = true →
    ∃ rows, kept = .ok rows ∧ feature.totalCount = some rows.length
  notAsked : request.options.count = false → feature.totalCount = none

/-- The next page and its link are those of the run, if there is one. -/
structure PageDescribed (request : Request) (kept : Outcome (List Value)) (feature : Feature) :
    Prop where
  nextPage : ∀ next, feature.nextPage = some next ↔
    ∃ size rows, request.settings.pageSize = some size ∧ kept = .ok rows ∧
      size < request.options.wanted rows.length ∧
      NextPage.after request.options.skip request.options.top size = some next
  nextLink : ∀ link, feature.nextLink = some link ↔
    ∃ next uri, feature.nextPage = some next ∧ request.options.uri = some uri ∧ next.link uri = link

variable {request : Request} {memory : MemoryRows} {query projected : Query}

theorem keptRows_of_filtered {filtered : FilteredRequest} {rows : List Value}
    (provided : query.provider = memory.provider) (applied : request.applyFilter query = .ok filtered)
    (executes : memory.execute filtered.query.expression = .ok rows) :
    request.keptRows memory query = .ok rows := by
  obtain ⟨-, -, -, isContext, isSource, expression, isFiltered, isQuery⟩ := applyFilter_eq_ok applied
  rw [isContext, provided] at isFiltered
  rw [isQuery] at executes
  simp only [keptRows, isSource, ok_bind]
  match present : request.options.filter with
  | none =>
    simp only [Request.filtered, present, Except.ok.injEq] at isFiltered
    rw [isFiltered, executes]
    rfl
  | some filter =>
    simp only [Request.filtered, present, bind_eq_ok, pure_eq_ok] at isFiltered
    obtain ⟨predicate, bound, mapped, translated, rfl⟩ := isFiltered
    simp only [bound, translated, ok_bind]
    have yields := (Yields.itself memory.rows [] query.expression).filter mapped.parameter mapped.body
      (Expr.callType .filter [query.expression, .ofLambda mapped])
    exact (yields.sequence.eq_ok_iff rows).1 executes

theorem count_of_countRows {filtered : FilteredRequest} {count : Option Nat}
    (provided : query.provider = memory.provider) (applied : request.applyFilter query = .ok filtered)
    (counts : request.countRows filtered memory = .ok count) (needed : request.needsCount = true) :
    ∃ rows, request.keptRows memory query = .ok rows ∧ count = some rows.length := by
  simp only [countRows, needed, if_true, MemoryRows.count, bind_eq_ok, pure_eq_ok] at counts
  obtain ⟨_, ⟨rows, executes, rfl⟩, rfl⟩ := counts
  exact ⟨rows, keptRows_of_filtered provided applied executes, rfl⟩

theorem after_of_wanted {options : RequestOptions} {size passing : Nat}
    (more : size < options.wanted passing) :
    ∃ next, NextPage.after options.skip options.top size = some next := by
  unfold RequestOptions.wanted at more
  unfold NextPage.after
  split
  next => exact ⟨_, rfl⟩
  next limit isTop =>
    simp only [isTop] at more
    have beyond : ¬ limit ≤ size := by omega
    rw [if_neg beyond]
    exact ⟨_, rfl⟩

theorem nextPage?_eq_some {kept : Outcome (List Value)} {count : Option Nat}
    (counted : request.needsCount = true → ∃ rows, kept = .ok rows ∧ count = some rows.length)
    (next : NextPage) :
    request.nextPage? count = some next ↔
      ∃ size rows, request.settings.pageSize = some size ∧ kept = .ok rows ∧
        size < request.options.wanted rows.length ∧
        NextPage.after request.options.skip request.options.top size = some next := by
  cases paged : request.settings.pageSize with
  | none => simp [nextPage?, paged]
  | some size =>
    obtain ⟨rows, rfl, rfl⟩ := counted (by simp [needsCount, paged])
    have page : request.nextPage? (some rows.length) =
        if request.options.wanted rows.length ≤ size then none
        else NextPage.after request.options.skip request.options.top size := by
      simp only [nextPage?, paged]
      rfl
    rw [page]
    by_cases last : request.options.wanted rows.length ≤ size
    · simp [last, Nat.not_lt.2 last]
    · simp [last, Nat.not_le.1 last]

theorem pageFollows_iff {kept : Outcome (List Value)} {count : Option Nat}
    (counted : request.needsCount = true → ∃ rows, kept = .ok rows ∧ count = some rows.length) :
    request.PageFollows kept ↔ ∃ next, request.nextPage? count = some next := by
  simp only [nextPage?_eq_some counted, PageFollows]
  constructor
  · rintro ⟨size, rows, paged, isKept, more⟩
    obtain ⟨next, isNext⟩ := after_of_wanted more
    exact ⟨next, size, rows, paged, isKept, more, isNext⟩
  · rintro ⟨-, size, rows, paged, isKept, more, -⟩
    exact ⟨size, rows, paged, isKept, more⟩

theorem project_records (provided : query.provider = memory.provider) {before after : RunState}
    (ran : (request.project query).run before = .ok projected after) :
    ∃ count, after.feature = request.recordedOver before.feature count ∧
      (request.needsCount = true →
        ∃ rows, request.keptRows memory query = .ok rows ∧ count = some rows.length) := by
  obtain ⟨filtered, applied, counted⟩ := bind_eq_ok.1
    ((project_computes request provided before.feature).of_ran ran)
  obtain ⟨count, counts, made⟩ := bind_eq_ok.1 counted
  obtain ⟨query', -, same⟩ := bind_eq_ok.1 made
  obtain ⟨-, isRecorded⟩ := Prod.mk.inj (Except.ok.inj same)
  exact ⟨count, isRecorded.symm, count_of_countRows provided applied counts⟩

theorem totalCount_recordedOver (request : Request) (before : Feature) (count : Option Nat) :
    (request.recordedOver before count).totalCount =
      if request.options.count then count else before.totalCount := by
  unfold recordedOver
  cases request.nextPage? count <;> rfl

theorem recordedOver_of_page (before : Feature) {count : Option Nat} {next : NextPage}
    (follows : request.nextPage? count = some next) :
    (request.recordedOver before count).nextPage = some next ∧
      (request.recordedOver before count).nextLink = request.options.uri.map next.link := by
  simp [recordedOver, Feature.withNextPage, follows]

theorem recordedOver_of_no_page (before : Feature) {count : Option Nat}
    (last : request.nextPage? count = none) :
    (request.recordedOver before count).nextPage = before.nextPage ∧
      (request.recordedOver before count).nextLink = before.nextLink := by
  simp [recordedOver, Feature.withNextPage, last]

theorem countDescribed_recordedOver {kept : Outcome (List Value)} {count : Option Nat}
    (counted : request.needsCount = true → ∃ rows, kept = .ok rows ∧ count = some rows.length)
    (before : Feature) :
    request.CountDescribed kept (request.recordedOver before count) ↔
      request.options.count = true ∨ before.totalCount = none := by
  have total := totalCount_recordedOver request before count
  by_cases asked : request.options.count = true
  · rw [if_pos asked] at total
    obtain ⟨rows, isKept, isCount⟩ := counted (by simp [needsCount, asked])
    refine ⟨fun _ => .inl asked, fun _ => ⟨fun _ => ⟨rows, isKept, total.trans isCount⟩, ?_⟩⟩
    intro notAsked
    simp [asked] at notAsked
  · rw [if_neg asked] at total
    rw [Bool.not_eq_true] at asked
    constructor
    · intro described
      exact .inr (total ▸ described.notAsked asked)
    · rintro (contrary | nothing)
      · simp [asked] at contrary
      · exact ⟨fun contrary => by simp [asked] at contrary, fun _ => total.trans nothing⟩

theorem pageDescribed_recordedOver {kept : Outcome (List Value)} {count : Option Nat}
    (counted : request.needsCount = true → ∃ rows, kept = .ok rows ∧ count = some rows.length)
    (before : Feature) :
    request.PageDescribed kept (request.recordedOver before count) ↔
      request.PageFollows kept ∨ before.nextPage = none ∧ before.nextLink = none := by
  have isNext := nextPage?_eq_some counted
  rw [pageFollows_iff counted]
  cases follows : request.nextPage? count with
  | some page =>
    obtain ⟨samePage, sameLink⟩ := recordedOver_of_page before follows
    refine ⟨fun _ => .inl ⟨page, rfl⟩, fun _ => ⟨fun next => ?_, fun link => ?_⟩⟩
    · rw [samePage, ← follows]
      exact isNext next
    · rw [samePage, sameLink]
      simp [Option.map_eq_some_iff]
  | none =>
    obtain ⟨samePage, sameLink⟩ := recordedOver_of_no_page before follows
    constructor
    · intro described
      -- A page of an earlier run would be described as one that follows, but none does.
      have noPage : before.nextPage = none := by
        refine Option.eq_none_iff_forall_ne_some.2 fun next isPage => ?_
        have page := (isNext next).2 ((described.nextPage next).1 (samePage.trans isPage))
        simp [follows] at page
      refine .inr ⟨noPage, Option.eq_none_iff_forall_ne_some.2 fun link isLink => ?_⟩
      obtain ⟨next, -, isPage, -⟩ := (described.nextLink link).1 (sameLink.trans isLink)
      simp [samePage, noPage] at isPage
    · rintro (⟨next, contrary⟩ | ⟨noPage, noLink⟩)
      · simp at contrary
      · refine ⟨fun next => ?_, fun link => ?_⟩
        · rw [samePage, noPage, ← isNext next, follows]
        · rw [samePage, sameLink, noPage, noLink]
          simp

/-- A run that succeeds records its own count and page. Where it has none to record, it leaves those
of an earlier run, so the record describes the run exactly when there is nothing to leave. -/
theorem project_describes_iff (provided : query.provider = memory.provider) {before after : RunState}
    (ran : (request.project query).run before = .ok projected after) :
    (request.CountDescribed (request.keptRows memory query) after.feature ↔
        request.options.count = true ∨ before.feature.totalCount = none) ∧
      (request.PageDescribed (request.keptRows memory query) after.feature ↔
        request.PageFollows (request.keptRows memory query) ∨
          before.feature.nextPage = none ∧ before.feature.nextLink = none) ∧
      (request.options.count = false → after.feature.totalCount = before.feature.totalCount) ∧
      (¬ request.PageFollows (request.keptRows memory query) →
        after.feature.nextPage = before.feature.nextPage ∧
          after.feature.nextLink = before.feature.nextLink) := by
  obtain ⟨count, isRecorded, counted⟩ := project_records provided ran
  rw [isRecorded]
  refine ⟨countDescribed_recordedOver counted _, pageDescribed_recordedOver counted _, ?_, ?_⟩
  · intro notAsked
    rw [totalCount_recordedOver, notAsked]
    rfl
  · rw [pageFollows_iff counted, not_exists]
    intro last
    exact recordedOver_of_no_page _ (Option.eq_none_iff_forall_ne_some.2 last)

def firstNumbers : Request := allNumbers.withPageSize (some 2)

def lastNumbers : Request :=
  { firstNumbers with options := { firstNumbers.options with skip := some 2, count := false } }

theorem project_describes_first_numbers :
    ∃ projected after, (firstNumbers.project numbers).run ⟨.idle, .fresh, []⟩ = .ok projected after ∧
      firstNumbers.CountDescribed (firstNumbers.keptRows threeNumbers numbers) after.feature ∧
      firstNumbers.PageDescribed (firstNumbers.keptRows threeNumbers numbers) after.feature := by
  have ends : Run.endsWith (firstNumbers.project numbers) ⟨.idle, .fresh, []⟩ (fun _ => true) = true := by
    rfl
  obtain ⟨projected, after, ran, -⟩ := Run.exists_of_endsWith ends
  have provided : numbers.provider = threeNumbers.provider := rfl
  obtain ⟨count, page, -, -⟩ := project_describes_iff provided ran
  exact ⟨projected, after, ran, count.2 (.inl rfl), page.2 (.inr ⟨rfl, rfl⟩)⟩

/-- After the last page the record still holds the page after the first one and its total. -/
theorem not_project_describes_last_numbers :
    ∃ projected first projected' last,
      (firstNumbers.project numbers).run ⟨.idle, .fresh, []⟩ = .ok projected first ∧
      (lastNumbers.project numbers).run first = .ok projected' last ∧
      ¬ lastNumbers.CountDescribed (lastNumbers.keptRows threeNumbers numbers) last.feature ∧
      ¬ lastNumbers.PageDescribed (lastNumbers.keptRows threeNumbers numbers) last.feature := by
  have ends : Run.endsWith (firstNumbers.project numbers >>= fun _ => lastNumbers.project numbers)
      ⟨.idle, .fresh, []⟩ (fun _ => true) = true := by
    rfl
  obtain ⟨projected', last, ran, -⟩ := Run.exists_of_endsWith ends
  obtain ⟨projected, first, ranFirst, ranLast⟩ := Run.bind_eq_ok.1 ran
  have kept (request : Request) (unfiltered : request.options.filter = none)
      (source : request.sourceType numbers = .ok "Number") :
      request.keptRows threeNumbers numbers = .ok threeNumbers.rows := by
    simp only [keptRows, source, ok_bind, unfiltered]
    rfl
  have provided : numbers.provider = threeNumbers.provider := rfl
  obtain ⟨count, isFirst, counted⟩ := project_records provided ranFirst
  obtain ⟨count', isLast, counted'⟩ := project_records provided ranLast
  have stale : first.feature = ⟨some 3, some ⟨2, none⟩, none⟩ := by
    obtain ⟨rows, isKept, rfl⟩ := counted rfl
    cases (kept firstNumbers rfl rfl).symm.trans isKept
    rw [isFirst]
    decide
  refine ⟨projected, first, projected', last, ranFirst, ranLast, ?_, ?_⟩ <;> rw [isLast, stale]
  · rw [countDescribed_recordedOver counted']
    simp [lastNumbers]
  · rw [pageDescribed_recordedOver counted']
    rintro (⟨size, rows, paged, isKept, more⟩ | ⟨noPage, -⟩)
    · cases (kept lastNumbers rfl rfl).symm.trans isKept
      cases (rfl : lastNumbers.settings.pageSize = some 2).symm.trans paged
      revert more
      decide
    · simp at noPage

end Request

end QueryProjection
