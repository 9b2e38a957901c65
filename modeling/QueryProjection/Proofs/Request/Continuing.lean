import QueryProjection.Proofs.Limits.Nesting
import QueryProjection.Proofs.Request.Bookkeeping

set_option autoImplicit false

namespace QueryProjection

open Outcome

theorem Limits.check_continued {limits : Limits} {options : RequestOptions} {skip : Nat}
    {top : Option Nat} (accepted : limits.check options = .ok ())
    (fewer : ∀ number ∈ top, ∃ most ∈ options.top, number ≤ most) :
    limits.check { options with skip := some skip, top } =
      if skip ≤ limits.maxSkip then .ok () else .error (.request .invalidLimit) := by
  simp only [check, checkLevel, bind_assoc, bind_eq_ok] at accepted
  obtain ⟨⟨⟩, tops, ⟨⟩, -, ⟨⟩, filtered, ⟨⟩, ordered, clause⟩ := accepted
  have topAccepted : checkPresent limits.checkTop top = .ok () := by
    simp only [checkPresent_eq_ok, checkTop, refuse_unless_within] at tops ⊢
    intro number isTop
    obtain ⟨most, isMost, below⟩ := fewer number isTop
    exact below.trans (tops most isMost)
  simp only [check, checkLevel, bind_assoc, topAccepted, ok_bind, filtered, ordered, clause]
  simp only [checkPresent, checkSkip]
  by_cases within : skip ≤ limits.maxSkip
  · rw [if_pos within, if_neg (Nat.not_lt.2 within)]
    rfl
  · rw [if_neg within, if_pos (Nat.not_le.1 within)]
    rfl

theorem NextPage.after_eq_some {skip top : Option Nat} {size : Nat} {next : NextPage}
    (follows : NextPage.after skip top size = some next) :
    next.skip = skip.getD 0 + size ∧ ∀ number ∈ next.top, ∃ most ∈ top, number ≤ most := by
  unfold NextPage.after at follows
  split at follows
  next =>
    cases follows
    simp
  next limit =>
    split at follows
    next => simp at follows
    next =>
      cases follows
      refine ⟨rfl, fun number isTop => ⟨limit, rfl, ?_⟩⟩
      rw [Option.mem_some_iff] at isTop
      omega

def FilteredRequest.continuedBy (filtered : FilteredRequest) (next : NextPage) : FilteredRequest :=
  { filtered with request := filtered.request.continuedBy next }

namespace Request

variable {request : Request} {memory : MemoryRows} {query projected : Query} {next : NextPage}

theorem check_continuedBy (accepted : request.settings.limits.check request.options = .ok ())
    (fewer : ∀ number ∈ next.top, ∃ most ∈ request.options.top, number ≤ most) :
    request.settings.limits.check (request.continuedBy next).options =
      if next.skip ≤ request.settings.limits.maxSkip then .ok ()
      else .error (.request .invalidLimit) :=
  Limits.check_continued accepted fewer

theorem fits_continuedBy {size : Nat} (paged : request.settings.pageSize = some size)
    (fits : Arrangement.Fits request.options.skip request.take)
    (follows : NextPage.after request.options.skip request.options.top size = some next)
    (skips : next.skip < 2 ^ 63) :
    Arrangement.Fits (request.continuedBy next).options.skip (request.continuedBy next).take := by
  obtain ⟨-, fewer⟩ := NextPage.after_eq_some follows
  -- The next page takes as many rows as this one, or fewer where a top runs out.
  have taken (number : Nat) (isTaken : number ∈ (request.continuedBy next).take) :
      ∃ most ∈ request.take, number ≤ most := by
    have page : (request.continuedBy next).settings.pageSize = some size := paged
    have top : (request.continuedBy next).options.top = next.top := rfl
    simp only [take, page, top, paged] at isTaken ⊢
    cases isNext : next.top with
    | none =>
      have unlimited : request.options.top = none := by
        unfold NextPage.after at follows
        split at follows
        next asked => exact asked
        next =>
          split at follows
          next => contradiction
          next =>
            cases follows
            contradiction
      rw [unlimited]
      rw [isNext] at isTaken
      exact ⟨number, isTaken, Nat.le_refl _⟩
    | some number' =>
      obtain ⟨most, isTop, below⟩ := fewer number' isNext
      rw [Option.mem_def] at isTop
      simp only [isNext, isTop, Option.mem_some_iff] at isTaken ⊢
      exact ⟨_, rfl, by omega⟩
  constructor
  · intro number isSkip
    cases isSkip
    exact skips
  · intro number isTaken
    obtain ⟨most, isTake, below⟩ := taken number isTaken
    exact Nat.lt_of_le_of_lt below (fits.2 most isTake)

theorem applyFilter_continuedBy {filtered : FilteredRequest}
    (applied : request.applyFilter query = .ok filtered)
    (accepted : request.settings.limits.check (request.continuedBy next).options = .ok ()) :
    (request.continuedBy next).applyFilter query = .ok (filtered.continuedBy next) := by
  simp only [applyFilter, bind_eq_ok, pure_eq_ok] at applied
  obtain ⟨⟨⟩, -, ⟨⟩, search, sourceType, isSource, expression, isFiltered, rfl⟩ := applied
  exact applyFilter_of (request.continuedBy next) accepted search isSource isFiltered

theorem project_continuedBy {elementType : String} {before after : RunState}
    (ran : (request.project (.ofProvider memory.provider elementType)).run before =
      .ok projected after)
    (accepted : request.settings.limits.check (request.continuedBy next).options = .ok ())
    (fits : Arrangement.Fits (request.continuedBy next).options.skip
      (request.continuedBy next).take) (state : RunState) :
    ∃ projected' state', ((request.continuedBy next).project
      (.ofProvider memory.provider elementType)).run state = .ok projected' state' := by
  have provided : (Query.ofProvider memory.provider elementType).provider = memory.provider := rfl
  obtain ⟨filtered, isApplied, counted⟩ := bind_eq_ok.1
    ((project_computes request provided before.feature).of_ran ran)
  obtain ⟨count, counts, made⟩ := bind_eq_ok.1 counted
  obtain ⟨query, isProjected, -⟩ := bind_eq_ok.1 made
  obtain ⟨_, isFiltered⟩ := applied_of_applyFilter isApplied
  have free := (filtered_spec isFiltered).2.1
  obtain ⟨expr, selector, -, arranged, selects, -⟩ :=
    FilteredRequest.projected_eq_ok free isProjected
  obtain ⟨levels, areLevels, -⟩ := FilteredRequest.arranged_eq_ok arranged
  have same := (applyFilter_eq_ok isApplied).2.2.1
  subst same
  -- Only the window is another one: filter, count, levels and selector stay those of the first run.
  have isContinued := applyFilter_continuedBy isApplied accepted
  have areLevels' : (filtered.continuedBy next).request.levels filtered.context = .ok levels :=
    areLevels
  obtain ⟨expr', arranged'⟩ := FilteredRequest.arranged_of_levels areLevels' fits
  have free' : (filtered.continuedBy next).query.expression.ConstructFree := free
  obtain ⟨query', projects⟩ := FilteredRequest.projected_of_selector free' arranged' selects
  have computes :=
    project_computes (filtered.request.continuedBy next) provided state.feature state rfl
  have counts' : (filtered.request.continuedBy next).countRows (filtered.continuedBy next) memory =
    .ok count := counts
  rw [isContinued, ok_bind, counts', ok_bind, projects, ok_bind] at computes
  obtain ⟨after', ends, -⟩ := computes
  exact ⟨query', after', ends⟩

theorem project_refused {cause : Error}
    (refused : request.settings.limits.check request.options = .error cause) (state : RunState) :
    (request.project query).run state = .error (.refused cause) state := by
  have applied : request.applyFilter query = .error cause := by
    simp only [applyFilter, refused, error_bind]
  simp only [project, applied, Run.ofOutcome]
  rfl

/-- The page that a run offers has rows, and the request for it is accepted unless its skip is
greater than a request may skip. -/
theorem next_page_accepted_iff (provided : query.provider = memory.provider)
    {before after : RunState} (nothing : before.feature.nextPage = none)
    (ran : (request.project query).run before = .ok projected after)
    (recorded : after.feature.nextPage = some next) :
    ∃ rows, request.keptRows memory query = .ok rows ∧ next.skip < rows.length ∧
      (request.settings.limits.check (request.continuedBy next).options = .ok () ↔
        next.skip ≤ request.settings.limits.maxSkip) ∧
      (request.settings.limits.maxSkip < next.skip → ∀ state,
        ((request.continuedBy next).project query).run state =
          .error (.refused (.request .invalidLimit)) state) ∧
      (rows.length ≤ 2 ^ 63 →
        Arrangement.checkedCount next.skip = .ok next.skip ∧
        ∀ elementType, query = .ofProvider memory.provider elementType →
          next.skip ≤ request.settings.limits.maxSkip → ∀ state, ∃ projected' state',
            ((request.continuedBy next).project query).run state = .ok projected' state') := by
  obtain ⟨count, isRecorded, counted⟩ := project_records provided ran
  have follows : request.nextPage? count = some next := by
    cases page : request.nextPage? count with
    | none =>
      rw [isRecorded, (recordedOver_of_no_page before.feature page).1, nothing] at recorded
      contradiction
    | some page' =>
      rw [isRecorded, (recordedOver_of_page before.feature page).1] at recorded
      exact recorded
  obtain ⟨size, rows, paged, isKept, more, isAfter⟩ := (nextPage?_eq_some counted next).1 follows
  obtain ⟨isSkip, fewer⟩ := NextPage.after_eq_some isAfter
  have within : next.skip < rows.length := by
    have wanted : request.options.wanted rows.length ≤
        rows.length - request.options.skip.getD 0 := by
      unfold RequestOptions.wanted
      split <;> omega
    omega
  obtain ⟨filtered, isApplied, isProjected⟩ := projected_of_project ran
  -- The run has passed the check itself, so only what the next page changes is checked anew.
  have accepted := (applyFilter_eq_ok isApplied).1
  have checked := check_continuedBy accepted fewer
  refine ⟨rows, isKept, within, ?_, ?_, ?_⟩
  · rw [checked]
    split <;> simp_all
  · intro beyond state
    rw [if_neg (Nat.not_le.2 beyond)] at checked
    exact project_refused checked state
  · intro addressed
    have skips : next.skip < 2 ^ 63 := by omega
    refine ⟨Arrangement.checkedCount_eq_ok.2 ⟨skips, rfl⟩, ?_⟩
    rintro elementType rfl inLimit state
    rw [if_pos inLimit] at checked
    have fits := FilteredRequest.fits_of_projected (applied_of_applyFilter isApplied) isProjected
    rw [(applyFilter_eq_ok isApplied).2.2.1] at fits
    exact project_continuedBy ran checked (fits_continuedBy paged fits isAfter skips) state

def offeredPage (request : Request) : Run (Option NextPage) := do
  let _ ← request.project numbers
  return (← get).feature.nextPage

theorem exists_of_offeredPage (request : Request) (next : NextPage)
    (offers : request.offeredPage.endsWith ⟨.idle, .fresh, []⟩ (· == some next) = true) :
    ∃ projected after, (request.project numbers).run ⟨.idle, .fresh, []⟩ = .ok projected after ∧
      after.feature.nextPage = some next := by
  obtain ⟨page, last, ran, same⟩ := Run.exists_of_endsWith offers
  obtain ⟨projected, after, projects, looked⟩ := Run.bind_eq_ok.1 ran
  cases looked
  exact ⟨projected, last, projects, beq_iff_eq.1 same⟩

theorem next_page_accepted_first_numbers :
    ∃ projected after,
      (firstNumbers.project numbers).run ⟨.idle, .fresh, []⟩ = .ok projected after ∧
      after.feature.nextPage = some ⟨2, none⟩ ∧
      firstNumbers.settings.limits.check (firstNumbers.continuedBy ⟨2, none⟩).options = .ok () := by
  obtain ⟨projected, after, ran, recorded⟩ :=
    exists_of_offeredPage firstNumbers ⟨2, none⟩ (by rfl)
  have provided : numbers.provider = threeNumbers.provider := rfl
  obtain ⟨rows, -, -, accepted, -⟩ := next_page_accepted_iff provided rfl ran recorded
  exact ⟨projected, after, ran, recorded, accepted.2 (by decide)⟩

def firstPageOnly : Request :=
  { firstNumbers with
    settings := { firstNumbers.settings with limits := { Limits.standard with maxSkip := 1 } } }

/-- The page that follows the first two of three numbers is offered, and then refused. -/
theorem not_next_page_accepted_first_page_only :
    ∃ projected after,
      (firstPageOnly.project numbers).run ⟨.idle, .fresh, []⟩ = .ok projected after ∧
      after.feature.nextPage = some ⟨2, none⟩ ∧
      firstPageOnly.settings.limits.check (firstPageOnly.continuedBy ⟨2, none⟩).options =
        .error (.request .invalidLimit) ∧
      ((firstPageOnly.continuedBy ⟨2, none⟩).project numbers).run after =
        .error (.refused (.request .invalidLimit)) after := by
  obtain ⟨projected, after, ran, recorded⟩ :=
    exists_of_offeredPage firstPageOnly ⟨2, none⟩ (by rfl)
  have refused : firstPageOnly.settings.limits.check (firstPageOnly.continuedBy ⟨2, none⟩).options =
      .error (.request .invalidLimit) := rfl
  exact ⟨projected, after, ran, recorded, refused, project_refused refused after⟩

end Request

end QueryProjection
