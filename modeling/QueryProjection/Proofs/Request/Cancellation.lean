import QueryProjection.Proofs.Request.Bookkeeping
import QueryProjection.Proofs.Request.Cancellable
import QueryProjection.Proofs.Request.Uncancelled

set_option autoImplicit false

namespace QueryProjection

open Outcome

namespace Token

variable {token : Token} {moment later : Nat}

def firesBy (token : Token) : (moment : Option Nat) → Bool
  | some moment => token.firesIn.any fun left => left ≤ moment
  | none => token.firesIn.isSome

theorem isCancelled_eq (token : Token) : token.isCancelled = token.firesBy (some 0) := by
  obtain ⟨firesIn⟩ := token
  cases firesIn <;> simp [isCancelled, firesBy, beq_eq_decide]

@[simp] theorem firesBy_after (token : Token) (moments : Nat) (moment : Option Nat) :
    (token.after moments).firesBy moment = token.firesBy (moment.map (moments + ·)) := by
  obtain ⟨firesIn⟩ := token
  cases firesIn <;> cases moment <;> simp [after, firesBy, Nat.add_comm]

@[simp] theorem firesBy_cancelled (moment : Option Nat) : cancelled.firesBy moment = true := by
  cases moment <;> simp [cancelled, firesBy]

theorem firesBy_mono (fires : token.firesBy (some moment) = true) {last : Option Nat}
    (notBefore : ∀ number ∈ last, moment ≤ number) : token.firesBy last = true := by
  obtain ⟨firesIn⟩ := token
  cases firesIn with
  | none => simp [firesBy] at fires
  | some left =>
    cases last with
    | none => rfl
    | some number =>
      have within : moment ≤ number := notBefore number rfl
      simp only [firesBy, Option.any_some, decide_eq_true_eq] at fires ⊢
      omega

theorem interrupts_eq (token : Token) (pending : Option Nat) :
    token.interrupts pending = (pending != some 0 && token.firesBy pending) := by
  cases pending <;> simp [interrupts, firesBy, bne, beq_eq_decide]

end Token

def RunState.waited (state : RunState) (moments : Nat) : RunState :=
  { state with token := state.token.after moments }

def Answer.tokenFrom {α : Type} (answer : Answer α) (token : Token) : Token :=
  if answer.cancels then .cancelled else token

/-- The call cancels the token when it is made, or ends by reporting a cancellation itself. -/
def Answer.Cancels {α : Type} (answer : Answer α) : Prop :=
  answer.cancels = true ∨ answer.pending.isSome = true ∧ answer.outcome = .error .cancelled

def Answer.ending {α : Type} (answer : Answer α) (raced : Bool) (token : Token) : Run α :=
  if raced && (answer.tokenFrom token).interrupts answer.pending then Run.refuse .cancelled
  else if answer.pending.isNone then throw .endless
  else Run.ofOutcome answer.outcome

def RunState.called {α : Type} (state : RunState) (call : ProviderCall) (answer : Answer α) :
    RunState :=
  { state with
    calls := state.calls ++ [call]
    token := (answer.tokenFrom state.token).after (answer.pending.getD 0) }

namespace Run

variable {α β : Type} {run : Run α} {next : α → Run β} {state after : RunState} {halt : Halt}

theorem bind_eq_error :
    (run >>= next).run state = .error halt after ↔
      run.run state = .error halt after ∨ ∃ value between, run.run state = .ok value between ∧
        (next value).run between = .error halt after := by
  simp only [EStateM.run, Bind.bind, EStateM.bind]
  cases run state <;> simp

theorem run_ask_eq (raced : Bool) (call : ProviderCall) (answer : Answer α) (state : RunState) :
    (ask raced call answer).run state =
      (answer.ending raced state.token).run (state.called call answer) :=
  rfl

def Cancels (run : Run α) (state : RunState) : Prop :=
  ∃ after, run.run state = .error (.refused .cancelled) after

structure RecordsNothing (run : Run α) : Prop where
  ok : ∀ {before after : RunState} {value : α}, run.run before = .ok value after →
    after.feature = before.feature
  error : ∀ {before after : RunState} {halt : Halt}, run.run before = .error halt after →
    after.feature = before.feature

namespace RecordsNothing

theorem pure (value : α) : RecordsNothing (pure value) where
  ok ended := by cases ended; rfl
  error ended := by cases ended

theorem bind (first : RecordsNothing run) (then_ : ∀ value, RecordsNothing (next value)) :
    RecordsNothing (run >>= next) where
  ok ended := by
    obtain ⟨value, between, ended, later⟩ := Run.bind_eq_ok.1 ended
    rw [(then_ value).ok later, first.ok ended]
  error ended := by
    rcases bind_eq_error.1 ended with ended | ⟨value, between, ended, later⟩
    · exact first.error ended
    · rw [(then_ value).error later, first.ok ended]

theorem map (first : RecordsNothing run) (function : α → β) :
    RecordsNothing (function <$> run) := by
  rw [map_eq_pure_bind]
  exact first.bind fun value => pure (function value)

theorem throw (halt : Halt) : RecordsNothing (throw halt : Run α) where
  ok ended := by cases ended
  error ended := by cases ended; rfl

theorem refuse (cause : Error) : RecordsNothing (Run.refuse cause : Run α) :=
  throw (.refused cause)

theorem ofOutcome (outcome : Outcome α) : RecordsNothing (Run.ofOutcome outcome) := by
  cases outcome with
  | ok value => exact pure value
  | error cause => exact refuse cause

theorem findsCancelled (watched : Bool) : RecordsNothing (Run.findsCancelled watched) where
  ok ended := by cases ended; rfl
  error ended := by cases ended

theorem stopIfCancelled (watched : Bool) : RecordsNothing (Run.stopIfCancelled watched) := by
  refine (findsCancelled watched).bind fun found => ?_
  cases found with
  | true => exact refuse .cancelled
  | false => exact pure ()

theorem ask (raced : Bool) (call : ProviderCall) (answer : Answer α) :
    RecordsNothing (Run.ask raced call answer) := by
  have ends (token : Token) : RecordsNothing (answer.ending raced token) := by
    unfold Answer.ending
    split
    next => exact refuse .cancelled
    next =>
      split
      next => exact throw .endless
      next => exact ofOutcome answer.outcome
  constructor
  · intro before after value ended
    rw [run_ask_eq] at ended
    have kept := (ends before.token).ok ended
    exact kept
  · intro before after halt ended
    rw [run_ask_eq] at ended
    have kept := (ends before.token).error ended
    exact kept

end RecordsNothing

theorem run_look {next : Bool → Run β} :
    (findsCancelled true >>= next).run state =
      (next state.token.isCancelled).run (state.waited 1) :=
  run_bind_of_ok rfl

theorem run_stop {next : Unit → Run β} :
    (stopIfCancelled true >>= next).run state =
      if state.token.isCancelled then .error (.refused .cancelled) (state.waited 1)
      else (next ()).run (state.waited 1) := by
  unfold stopIfCancelled
  rw [bind_assoc, run_look]
  cases state.token.isCancelled <;> rfl

theorem cancels_look {next : Bool → Run β} :
    (findsCancelled true >>= next).Cancels state ↔
      (next (state.token.firesBy (some 0))).Cancels (state.waited 1) := by
  unfold Cancels
  rw [run_look, Token.isCancelled_eq]

theorem cancels_stop {next : Unit → Run β} :
    (stopIfCancelled true >>= next).Cancels state ↔
      state.token.firesBy (some 0) = true ∨ (next ()).Cancels (state.waited 1) := by
  unfold Cancels
  rw [run_stop, Token.isCancelled_eq]
  split
  next fired => simp [fired]
  next unfired => simp [unfired]

theorem cancels_ask {raced : Bool} {call : ProviderCall} {answer : Answer α}
    (answered : ∀ cause, answer.outcome = .error cause → cause = .cancelled)
    (ends : raced = true ∨ answer.pending.isSome = true)
    (finishes : ∀ value state, ¬ (next value).Cancels state) :
    (ask raced call answer >>= fun value =>
        stopIfCancelled true >>= fun _ => next value).Cancels state ↔
      state.token.firesBy answer.pending = true ∨ answer.Cancels := by
  have fires : state.token.firesBy answer.pending = true ∨ answer.Cancels ↔
      (answer.tokenFrom state.token).firesBy answer.pending = true ∨
        answer.pending.isSome = true ∧ answer.outcome = .error .cancelled := by
    unfold Answer.tokenFrom Answer.Cancels
    split <;> simp_all
  rw [fires]
  by_cases interrupted : (raced && (answer.tokenFrom state.token).interrupts answer.pending) = true
  · -- The token fires while the call is pending, and the call is given up.
    have given : (ask raced call answer).run state =
        .error (.refused .cancelled) (state.called call answer) := by
      rw [run_ask_eq, Answer.ending, if_pos interrupted]
      rfl
    have fired : (answer.tokenFrom state.token).firesBy answer.pending = true := by
      rw [Bool.and_eq_true, Token.interrupts_eq, Bool.and_eq_true] at interrupted
      exact interrupted.2.2
    exact ⟨fun _ => .inl fired, fun _ => ⟨_, bind_eq_error.2 (.inl given)⟩⟩
  · cases isPending : answer.pending with
    | none =>
      have isRaced : raced = true := by simpa [isPending] using ends
      -- Nothing interrupts a call that never ends: the run is not cancelled, it waits.
      have waits : (ask raced call answer).run state =
          .error .endless (state.called call answer) := by
        rw [run_ask_eq, Answer.ending, if_neg interrupted, isPending]
        rfl
      have unfired : (answer.tokenFrom state.token).firesBy none = false := by
        simpa [isRaced, isPending, Token.interrupts_eq] using interrupted
      simp only [unfired, Option.isSome_none, Bool.false_eq_true, false_and, or_false, iff_false]
      rintro ⟨after, cancelled⟩
      rcases bind_eq_error.1 cancelled with ended | ⟨_, _, ended, -⟩ <;>
        simp [waits] at ended
    | some moments =>
      have answers : (ask raced call answer).run state =
          (ofOutcome answer.outcome).run (state.called call answer) := by
        rw [run_ask_eq, Answer.ending, if_neg interrupted, isPending]
        rfl
      cases outcome : answer.outcome with
      | ok value =>
        rw [outcome] at answers
        have looks : (ask raced call answer >>= fun value =>
            stopIfCancelled true >>= fun _ => next value).Cancels state ↔
            (stopIfCancelled true >>= fun _ => next value).Cancels (state.called call answer) := by
          unfold Cancels
          rw [run_bind_of_ok answers]
        rw [looks, cancels_stop, or_iff_left (finishes value _)]
        simp [RunState.called, isPending]
      | error cause =>
        obtain rfl := answered cause outcome
        rw [outcome] at answers
        exact ⟨fun _ => .inr ⟨rfl, rfl⟩, fun _ => ⟨_, bind_eq_error.2 (.inl answers)⟩⟩

end Run

namespace Query

/-- The moment of the last look before the rows are counted. -/
def lookBeforeCount (query : Query) : Nat :=
  if query.provider.feed?.isSome then 1 else 0

/-- How the provider counts the rows for a run that starts with a token. A feed is told whether the
token has fired by then. -/
def countAnswer (query : Query) (token : Token) : Answer Nat :=
  match query.provider.feed? with
  | some feed => feed.count query.expression (token.firesBy (some 2))
  | none => query.provider.count query.expression

/-- The count does not fail, unless by a cancellation. Only a count through a feed may never end. -/
def Counts (query : Query) (token : Token) : Prop :=
  (∀ cause, (query.countAnswer token).outcome = .error cause → cause = .cancelled) ∧
    (query.provider.feed?.isSome = true ∨ (query.countAnswer token).pending.isSome = true)

/-- The moment of the last look of a run that counts the rows: the one when the count ends. -/
def lookAfterCount (query : Query) (token : Token) : Option Nat :=
  (query.countAnswer token).pending.map fun pending =>
    (if query.provider.feed?.isSome then 3 else 1) + pending

end Query

namespace Request

variable {request : Request} {query : Query} {filtered : FilteredRequest} {before : RunState}

/-- The moment of the last look at the token, unless the count is pending for ever. -/
def lastLook (request : Request) (query : Query) (token : Token) : Option Nat :=
  if request.needsCount then query.lookAfterCount token else some 1

theorem not_cancels_conclude (filtered : FilteredRequest) (count : Option Nat) (state : RunState) :
    ¬ (conclude filtered count).Cancels state := by
  have finishes (state : RunState) : ¬ (do
      let query ← Run.ofOutcome filtered.projected
      Run.record fun feature =>
        feature.withNextPage filtered.request.options.uri (filtered.request.nextPage? count)
      return query : Run Query).Cancels state := by
    rintro ⟨after, cancelled⟩
    rcases Run.bind_eq_error.1 cancelled with failed | ⟨query, between, -, recorded⟩
    · have uncancelled := filtered.uncancelled_projected
      cases projected : filtered.projected with
      | ok query => simp [projected, Run.ofOutcome] at failed
      | error cause =>
        rw [projected] at failed
        cases failed
        exact uncancelled projected
    · cases recorded
  unfold conclude
  by_cases counts : filtered.request.options.count = true
  · rw [if_pos counts]
    rintro ⟨after, cancelled⟩
    rcases Run.bind_eq_error.1 cancelled with recorded | ⟨_, between, -, cancelled⟩
    · cases recorded
    · exact finishes between ⟨after, cancelled⟩
  · rw [if_neg counts]
    exact finishes state

theorem recordsNothing_countIf (needed : Bool) (query : Query) (watched : Bool) :
    Run.RecordsNothing (countIf needed (query.countThroughFeed watched)) := by
  unfold countIf
  split
  next =>
    refine Run.RecordsNothing.map ?_ some
    unfold Query.countThroughFeed
    split
    next feed _ =>
      exact (Run.RecordsNothing.stopIfCancelled watched).bind fun _ =>
        (Run.RecordsNothing.findsCancelled watched).bind fun _ => .ask _ _ _
    next => exact .ask _ _ _
  next => exact .pure none

theorem feature_of_cancelled {watched : Bool} {after : RunState}
    (cancelled : (request.projectCancellably query watched).run before =
      .error (.refused .cancelled) after) : after.feature = before.feature := by
  have stops := Run.RecordsNothing.stopIfCancelled watched
  unfold projectCancellably at cancelled
  rcases Run.bind_eq_error.1 cancelled with stopped | ⟨_, first, passed, cancelled⟩
  · exact stops.error stopped
  rw [← stops.ok passed]
  rcases Run.bind_eq_error.1 cancelled with refused | ⟨filtered, second, filters, cancelled⟩
  · exact (Run.RecordsNothing.ofOutcome _).error refused
  rw [← (Run.RecordsNothing.ofOutcome _).ok filters]
  have counts := recordsNothing_countIf request.needsCount filtered.query watched
  rcases Run.bind_eq_error.1 cancelled with failed | ⟨count, third, counted, cancelled⟩
  · exact counts.error failed
  rw [← counts.ok counted]
  rcases Run.bind_eq_error.1 cancelled with stopped | ⟨_, fourth, -, cancelled⟩
  · exact stops.error stopped
  · exact absurd ⟨after, cancelled⟩ (not_cancels_conclude filtered count fourth)

theorem cancels_counted {token : Token} (unfired : token.firesBy (some 0) = false)
    (counts : token.firesBy (some query.lookBeforeCount) = false → query.Counts token)
    (isToken : before.token = token.after 1) :
    (countIf true (query.countThroughFeed true) >>= fun count =>
        Run.stopIfCancelled true >>= fun _ => conclude filtered count).Cancels before ↔
      token.firesBy (query.lookAfterCount token) = true ∨
        (query.countAnswer token).Cancels := by
  have finishes (count : Nat) := not_cancels_conclude filtered (some count)
  unfold countIf
  rw [if_pos rfl, map_eq_pure_bind, bind_assoc]
  simp only [pure_bind]
  unfold Query.countThroughFeed
  cases isFeed : query.provider.feed? with
  | none =>
    have isAnswer : query.countAnswer token = query.provider.count query.expression := by
      simp only [Query.countAnswer, isFeed]
    obtain ⟨answered, ends⟩ :=
      counts (by simpa [Query.lookBeforeCount, isFeed] using unfired)
    have ends : (query.provider.count query.expression).pending.isSome = true := by
      simpa [isFeed, isAnswer] using ends
    rw [isAnswer] at answered ⊢
    unfold Query.count
    rw [Run.cancels_ask answered (.inr ends) finishes, isToken]
    simp [Query.lookAfterCount, isFeed, isAnswer]
  | some feed =>
    have isAnswer : query.countAnswer token =
        feed.count query.expression (token.firesBy (some 2)) := by
      simp only [Query.countAnswer, isFeed]
    have told : (before.waited 1).token.firesBy (some 0) = token.firesBy (some 2) := by
      simp [RunState.waited, isToken]
    simp only [bind_assoc]
    -- The first look is at moment one, and the feed is told what the next one finds.
    rw [Run.cancels_stop, Run.cancels_look, told, ← isAnswer, isToken]
    cases fired : token.firesBy (some 1) with
    | true =>
      have firesLast : token.firesBy (query.lookAfterCount token) = true := by
        refine Token.firesBy_mono fired fun number isLast => ?_
        obtain ⟨pending, -, rfl⟩ := Option.map_eq_some_iff.1 isLast
        simp only [isFeed, Option.isSome_some, if_true]
        omega
      simp [fired, firesLast]
    | false =>
      obtain ⟨answered, -⟩ :=
        counts (by simpa [Query.lookBeforeCount, isFeed] using fired)
      rw [Run.cancels_ask answered (.inl rfl) finishes]
      simp [Query.lookAfterCount, isFeed, RunState.waited, isToken, fired, Function.comp_def,
        ← Nat.add_assoc]

theorem cancels_iff (applied : request.applyFilter query = .ok filtered)
    (counted : request.needsCount = true →
      before.token.firesBy (some filtered.query.lookBeforeCount) = false →
      filtered.query.Counts before.token) :
    (request.projectCancellably query true).Cancels before ↔
      before.token.firesBy (request.lastLook filtered.query before.token) = true ∨
        request.needsCount = true ∧ (filtered.query.countAnswer before.token).Cancels := by
  have isToken : (before.waited 1).token = before.token.after 1 := rfl
  unfold projectCancellably
  rw [applied, Run.cancels_stop]
  simp only [Run.ofOutcome, pure_bind]
  cases fired : before.token.firesBy (some 0) with
  | true =>
    have firesLast : before.token.firesBy (request.lastLook filtered.query before.token) = true :=
      Token.firesBy_mono fired fun _ _ => Nat.zero_le _
    simp [firesLast]
  | false =>
    cases needed : request.needsCount with
    | true =>
      rw [cancels_counted fired (counted needed) isToken]
      simp [lastLook, needed]
    | false =>
      have finishes := not_cancels_conclude filtered none ((before.waited 1).waited 1)
      simp only [countIf, Bool.false_eq_true, if_false, pure_bind, Run.cancels_stop, isToken]
      simp [lastLook, needed, finishes]

theorem cancelled_at_once (watched : before.token.isCancelled = true) :
    (request.projectCancellably query true).run before =
        .error (.refused .cancelled) (before.waited 1) ∧
      (request.rowsCancellably query true).run before =
        .error (.refused .cancelled) (before.waited 1) := by
  have projects : (request.projectCancellably query true).run before =
      .error (.refused .cancelled) (before.waited 1) := by
    unfold projectCancellably
    rw [Run.run_stop, if_pos watched]
  refine ⟨projects, ?_⟩
  unfold rowsCancellably
  exact Run.bind_eq_error.2 (.inl projects)

/-- A request that is cancelled has recorded nothing. It is cancelled exactly when its token has
fired by the last look at it, unless it fails before that; and when the token has fired from the
start, no call is made. -/
theorem cancellation_atomic (request : Request) (query : Query) (before : RunState) :
    (∀ watched after, (request.projectCancellably query watched).run before =
        .error (.refused .cancelled) after → after.feature = before.feature) ∧
      (∀ filtered, request.applyFilter query = .ok filtered →
        (request.needsCount = true →
          before.token.firesBy (some filtered.query.lookBeforeCount) = false →
          filtered.query.Counts before.token) →
        ((request.projectCancellably query true).Cancels before ↔
          before.token.firesBy (request.lastLook filtered.query before.token) = true ∨
            request.needsCount = true ∧ (filtered.query.countAnswer before.token).Cancels)) ∧
      (before.token.isCancelled = true → ∃ after,
        (request.projectCancellably query true).run before = .error (.refused .cancelled) after ∧
        (request.rowsCancellably query true).run before = .error (.refused .cancelled) after ∧
        after.calls = before.calls ∧ after.feature = before.feature) := by
  refine ⟨fun _ _ => feature_of_cancelled, fun _ => cancels_iff, fun fired => ?_⟩
  obtain ⟨projects, reads⟩ := cancelled_at_once fired
  exact ⟨before.waited 1, projects, reads, rfl, rfl⟩

theorem cancellation_atomic_first_numbers :
    ∃ after, (firstNumbers.projectCancellably numbers true).run ⟨⟨some 3⟩, .fresh, []⟩ =
      .error (.refused .cancelled) after ∧ after.feature = .fresh := by
  obtain ⟨filtered, applied, holds⟩ := exists_of_toOption_any (firstNumbers.applyFilter numbers)
    (fun filtered => filtered.query.provider.feed?.isSome &&
      (filtered.query.countAnswer ⟨some 3⟩).outcome.toOption.any (· == 3) &&
      Token.firesBy ⟨some 3⟩ (firstNumbers.lastLook filtered.query ⟨some 3⟩)) (by rfl)
  simp only [Bool.and_eq_true] at holds
  obtain ⟨⟨isFeed, counted⟩, fires⟩ := holds
  obtain ⟨count, answered, -⟩ := exists_of_toOption_any _ _ counted
  obtain ⟨atomic, cancels, -⟩ := cancellation_atomic firstNumbers numbers ⟨⟨some 3⟩, .fresh, []⟩
  have counts : filtered.query.Counts ⟨some 3⟩ := ⟨by simp [answered], .inl isFeed⟩
  obtain ⟨after, cancelled⟩ := (cancels filtered applied fun _ _ => counts).2 (.inl fires)
  exact ⟨after, cancelled, atomic true after cancelled⟩

end Request

end QueryProjection
