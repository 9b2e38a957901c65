import QueryProjection.Proofs.Provider.Paging
import QueryProjection.Proofs.Request.Calls
import QueryProjection.Proofs.Request.Paging

set_option autoImplicit false

namespace QueryProjection

open Outcome

structure RunState.Alike (state other : RunState) : Prop where
  idle : state.token = .idle
  otherIdle : other.token = .idle
  feature : state.feature = other.feature

def RunState.asked (state : RunState) (call : ProviderCall) : RunState :=
  { state with calls := state.calls ++ [call], token := state.token.after 0 }

theorem RunState.Alike.symm {state other : RunState} (alike : state.Alike other) :
    other.Alike state :=
  ⟨alike.otherIdle, alike.idle, alike.feature.symm⟩

theorem RunState.Alike.asked {state other : RunState} (alike : state.Alike other)
    (call : ProviderCall) : state.Alike (other.asked call) :=
  ⟨alike.idle, congrArg (Token.after · 0) alike.otherIdle, alike.feature⟩

theorem RunState.Alike.findsCancelled {state other : RunState} (alike : state.Alike other)
    (watched : Bool) :
    ∃ after, (Run.findsCancelled watched).run other = .ok false after ∧ state.Alike after := by
  obtain ⟨idle, otherIdle, feature⟩ := alike
  refine ⟨{ other with token := other.token.after 1 }, ?_, idle, ?_, feature⟩
  · change EStateM.Result.ok (watched && other.token.isCancelled) _ = _
    rw [otherIdle]
    simp [Token.idle, Token.isCancelled]
  · rw [otherIdle]
    rfl

namespace Run

variable {α β : Type}

theorem run_ask (raced : Bool) (call : ProviderCall) (outcome : Outcome α) (state : RunState) :
    (ask raced call (.immediate outcome)).run state =
      (ofOutcome outcome).run (state.asked call) := by
  cases raced <;> rfl

theorem run_bind_of_ok {run : Run α} {next : α → Run β} {before between : RunState} {value : α}
    (ended : run.run before = .ok value between) :
    (run >>= next).run before = (next value).run between := by
  simp only [EStateM.run, Bind.bind, EStateM.bind] at ended ⊢
  rw [ended]

end Run

/-- How a run ends, and what is recorded then. -/
def Run.leaves {α : Type} (run : Run α) (before : RunState) : Except Halt α × Feature :=
  match run.run before with
  | .ok value after => (.ok value, after.feature)
  | .error halt after => (.error halt, after.feature)

inductive EndAlike {α : Type} :
    EStateM.Result Halt RunState α → EStateM.Result Halt RunState α → Prop where
  | ok (value : α) {after after' : RunState} (alike : after.Alike after') :
      EndAlike (.ok value after) (.ok value after')
  | error (halt : Halt) {after after' : RunState} (alike : after.Alike after') :
      EndAlike (.error halt after) (.error halt after')

namespace EndAlike

variable {α β : Type} {before before' : RunState}

theorem leaves {run run' : Run α} (ends : EndAlike (run.run before) (run'.run before')) :
    run.leaves before = run'.leaves before' := by
  unfold Run.leaves
  generalize run.run before = ended, run'.run before' = ended' at ends
  cases ends with
  | ok value alike => simp only [alike.feature]
  | error halt alike => simp only [alike.feature]

theorem bind {run run' : Run α} {next next' : α → Run β}
    (first : EndAlike (run.run before) (run'.run before'))
    (then_ : ∀ value after after', run.run before = .ok value after → after.Alike after' →
      EndAlike ((next value).run after) ((next' value).run after')) :
    EndAlike ((run >>= next).run before) ((run' >>= next').run before') := by
  simp only [EStateM.run, Bind.bind, EStateM.bind] at first then_ ⊢
  generalize run' before' = ended' at first
  cases ended : run before with
  | ok value after =>
    rw [ended] at first
    cases first with
    | ok _ alike => exact then_ value after _ ended alike
  | error halt after =>
    rw [ended] at first
    cases first with
    | error _ alike => exact .error halt alike

theorem ofOutcome (outcome : Outcome α) (alike : before.Alike before') :
    EndAlike ((Run.ofOutcome outcome).run before) ((Run.ofOutcome outcome).run before') := by
  cases outcome with
  | ok value => exact .ok value alike
  | error cause => exact .error _ alike

theorem record (change : Feature → Feature) (alike : before.Alike before') :
    EndAlike ((Run.record change).run before) ((Run.record change).run before') :=
  .ok () ⟨alike.idle, alike.otherIdle, congrArg change alike.feature⟩

theorem ask (raced raced' : Bool) (call call' : ProviderCall) (outcome : Outcome α)
    (alike : before.Alike before') :
    EndAlike ((Run.ask raced call (.immediate outcome)).run before)
      ((Run.ask raced' call' (.immediate outcome)).run before') := by
  rw [Run.run_ask, Run.run_ask]
  exact ofOutcome outcome ((alike.asked call').symm.asked call).symm

theorem findsCancelled {run : Run α} {next : Bool → Run α} (watched : Bool)
    (alike : before.Alike before')
    (then_ : ∀ after', before.Alike after' → EndAlike (run.run before) ((next false).run after')) :
    EndAlike (run.run before) ((Run.findsCancelled watched >>= next).run before') := by
  obtain ⟨after', looked, alike'⟩ := alike.findsCancelled watched
  rw [Run.run_bind_of_ok looked]
  exact then_ after' alike'

theorem stopIfCancelled {run : Run α} {next : Unit → Run α} (watched : Bool)
    (alike : before.Alike before')
    (then_ : ∀ after', before.Alike after' → EndAlike (run.run before) ((next ()).run after')) :
    EndAlike (run.run before) ((Run.stopIfCancelled watched >>= next).run before') := by
  unfold Run.stopIfCancelled
  rw [bind_assoc]
  exact findsCancelled watched alike then_

end EndAlike

namespace MemoryRows

/-- Every offset into the rows of a query fits in 64 bits. -/
def Addresses (memory : MemoryRows) (expression : Expr) : Prop :=
  ∀ rows, memory.execute expression = .ok rows → rows.length ≤ 2 ^ 64

theorem positive_pageSize_ofRows (rows : List Value) (pageSize : Option Nat) :
    ∀ size ∈ (ofRows rows pageSize).pageSize, 0 < size := by
  intro size isSize
  obtain ⟨asked, -, rfl⟩ := Option.map_eq_some_iff.1 isSize
  omega

end MemoryRows

namespace Feed

variable {memory : MemoryRows} {expression : Expr} {rows : List Value} {state other : RunState}

theorem readFrom_offset (positive : ∀ size ∈ memory.pageSize, 0 < size)
    (executes : memory.execute expression = .ok rows) (addressed : rows.length ≤ 2 ^ 64)
    (watched raced : Bool) {fuel offset : Nat} {continuation : Option String}
    (within : offset ≤ rows.length) (enough : rows.length < fuel + offset)
    (reads : MemoryRows.readOffset continuation = .ok offset) (alike : state.Alike other) :
    ∃ after, (memory.feed.readFrom watched raced expression fuel continuation).run other =
      .ok (rows.drop offset) after ∧ state.Alike after := by
  induction fuel generalizing offset continuation other with
  | zero => omega
  | succ fuel ih =>
    obtain ⟨looked, looks, alike⟩ := alike.findsCancelled watched
    have asks := Run.run_ask raced (.nextPage expression continuation)
      (.ok (MemoryRows.page memory.pageSize rows offset)) looked
    have alike := alike.asked (.nextPage expression continuation)
    have answer : memory.feed.nextPage expression continuation false =
        .immediate (.ok (MemoryRows.page memory.pageSize rows offset)) := by
      simp only [MemoryRows.feed, MemoryRows.nextPage, reads, executes, Outcome.ok_bind,
        Bool.false_eq_true, if_false]
      rfl
    unfold readFrom
    rw [Run.run_bind_of_ok looks, answer, Run.run_bind_of_ok asks]
    cases continued : (MemoryRows.page memory.pageSize rows offset).continuation with
    | none =>
      rw [← MemoryRows.page_last continued]
      exact ⟨_, rfl, alike⟩
    | some next =>
      obtain ⟨stop, rfl, ahead, more, split⟩ := MemoryRows.page_continued positive continued
      have fits : stop < 2 ^ 64 := by omega
      have readsNext : MemoryRows.readOffset (some (toString stop)) = .ok stop := by
        simp only [MemoryRows.readOffset, Continuation.read_toString fits]
      obtain ⟨after, later, alike⟩ := ih (by omega) (by omega) readsNext alike
      simp only
      rw [Run.run_bind_of_ok later, split]
      exact ⟨after, rfl, alike⟩

theorem read_alike (positive : ∀ size ∈ memory.pageSize, 0 < size)
    (addressed : memory.Addresses expression) (call : ProviderCall) (watched raced : Bool)
    (alike : state.Alike other) :
    EndAlike ((Run.ask false call (.immediate (memory.execute expression))).run state)
      ((memory.feed.read watched raced expression).run other) := by
  have bound : memory.feed.pageBound expression = memory.pageBound expression := rfl
  unfold read
  cases executes : memory.execute expression with
  | ok rows =>
    have fuel : memory.feed.pageBound expression = rows.length + 1 := by
      simp only [bound, MemoryRows.pageBound, executes]
    have start : MemoryRows.readOffset none = .ok 0 := rfl
    have enough : rows.length < rows.length + 1 + 0 := by omega
    obtain ⟨after, reads, alike⟩ := readFrom_offset positive executes (addressed rows executes)
      watched raced (Nat.zero_le _) enough start alike
    rw [fuel, reads, Run.run_ask]
    exact .ok rows (alike.symm.asked call).symm
  | error cause =>
    have fuel : memory.feed.pageBound expression = 1 := by
      simp only [bound, MemoryRows.pageBound, executes]
    have answer : memory.feed.nextPage expression none false = .immediate (.error cause) := by
      simp only [MemoryRows.feed, MemoryRows.nextPage, MemoryRows.readOffset, executes]
      rfl
    -- A query that fails has no pages: the first one brings the error.
    rw [fuel]
    refine EndAlike.findsCancelled watched alike fun other alike => ?_
    rw [answer]
    have stays := ((alike.asked (.nextPage expression none)).symm.asked call).symm
    cases raced <;> exact .error (.refused cause) stays

end Feed

namespace Request

variable {memory : MemoryRows} {request : Request} {query : Query} {state other : RunState}

theorem conclude_alike (filtered : FilteredRequest) (count : Option Nat)
    (alike : state.Alike other) :
    EndAlike ((conclude filtered count).run state) ((conclude filtered count).run other) := by
  have finishes {state other : RunState} (alike : state.Alike other) : EndAlike
      ((do
        let query ← Run.ofOutcome filtered.projected
        Run.record fun feature =>
          feature.withNextPage filtered.request.options.uri (filtered.request.nextPage? count)
        return query : Run Query).run state)
      ((do
        let query ← Run.ofOutcome filtered.projected
        Run.record fun feature =>
          feature.withNextPage filtered.request.options.uri (filtered.request.nextPage? count)
        return query : Run Query).run other) :=
    EndAlike.bind (.ofOutcome _ alike) fun query _ _ _ alike =>
      EndAlike.bind (.record _ alike) fun _ _ _ _ alike => .ok query alike
  unfold conclude
  by_cases counts : filtered.request.options.count = true
  · rw [if_pos counts]
    exact EndAlike.bind (.record _ alike) fun _ _ _ _ alike => finishes alike
  · rw [if_neg counts]
    exact finishes alike

theorem countIf_alike {filtered : FilteredRequest}
    (provided : filtered.query.provider = memory.provider) (needed watched : Bool)
    (alike : state.Alike other) :
    EndAlike ((countIf needed filtered.query.count).run state)
      ((countIf needed (filtered.query.countThroughFeed watched)).run other) := by
  cases needed with
  | false => exact .ok none alike
  | true =>
    have counts : EndAlike (filtered.query.count.run state)
        ((filtered.query.countThroughFeed watched).run other) := by
      unfold Query.count Query.countThroughFeed
      rw [provided]
      refine EndAlike.stopIfCancelled watched alike fun _ alike => ?_
      refine EndAlike.findsCancelled watched alike fun _ alike => ?_
      exact EndAlike.ask false watched _ _ _ alike
    exact EndAlike.bind counts fun count _ _ _ alike => .ok (some count) alike

theorem projectCancellably_alike (provided : query.provider = memory.provider) (watched : Bool)
    (alike : state.Alike other) :
    EndAlike ((request.project query).run state)
      ((request.projectCancellably query watched).run other) := by
  unfold project projectCancellably
  refine EndAlike.stopIfCancelled watched alike fun _ alike => ?_
  refine EndAlike.bind (.ofOutcome _ alike) fun filtered _ _ filters alike => ?_
  obtain ⟨applied, -⟩ := Run.ofOutcome_eq_ok.1 filters
  obtain ⟨-, -, -, -, -, expression, -, isQuery⟩ := applyFilter_eq_ok applied
  have provided : filtered.query.provider = memory.provider := by rw [isQuery, provided]
  refine EndAlike.bind (countIf_alike provided _ watched alike) fun count _ _ _ alike => ?_
  exact EndAlike.stopIfCancelled watched alike fun _ alike => conclude_alike filtered count alike

theorem readAll_alike (provided : query.provider = memory.provider)
    (positive : ∀ size ∈ memory.pageSize, 0 < size) (addressed : memory.Addresses query.expression)
    (watched raced : Bool) (alike : state.Alike other) :
    EndAlike (query.toList.run state) ((query.readAll watched raced).run other) := by
  unfold Query.toList Query.readAll
  rw [provided]
  refine EndAlike.stopIfCancelled watched alike fun _ alike => ?_
  exact Feed.read_alike positive addressed _ watched raced alike

theorem rowsCancellably_alike (provided : query.provider = memory.provider)
    (positive : ∀ size ∈ memory.pageSize, 0 < size)
    (addressed : ∀ projected after, (request.project query).run state = .ok projected after →
      memory.Addresses projected.expression)
    (watched : Bool) (alike : state.Alike other) :
    EndAlike ((request.rows query).run state) ((request.rowsCancellably query watched).run other) := by
  unfold rows rowsCancellably
  refine EndAlike.bind (projectCancellably_alike provided watched alike) ?_
  intro projected after after' projects alike
  obtain ⟨filtered, applied, isProjected⟩ := projected_of_project projects
  obtain ⟨-, -, -, -, -, expression, -, isQuery⟩ := applyFilter_eq_ok applied
  have provided : projected.provider = memory.provider := by
    rw [provider_of_projected isProjected, isQuery, provided]
  refine EndAlike.stopIfCancelled watched alike fun _ alike => ?_
  exact readAll_alike provided positive (addressed projected after projects) watched watched alike

/-- While its token never fires, a request that can be cancelled leaves what the plain one leaves:
the same rows or the same error, and the same record. Reading a feed to its end is what the provider
yields at once. -/
theorem rowsCancellably_leaves {rows : List Value} {pageSize : Option Nat} {query : Query}
    (provided : query.provider = (MemoryRows.ofRows rows pageSize).provider) (request : Request)
    (watched : Bool) {before : RunState} (idle : before.token = .idle)
    (addressed : ∀ projected after, (request.project query).run before = .ok projected after →
      (MemoryRows.ofRows rows pageSize).Addresses projected.expression) :
    (request.rowsCancellably query watched).leaves before = (request.rows query).leaves before ∧
      ∀ (expression : Expr) (watched raced : Bool),
        (MemoryRows.ofRows rows pageSize).Addresses expression →
        ((MemoryRows.ofRows rows pageSize).feed.read watched raced expression).leaves before =
          (((MemoryRows.ofRows rows pageSize).execute expression).mapError .refused,
            before.feature) := by
  have alike : before.Alike before := ⟨idle, idle, rfl⟩
  have positive := MemoryRows.positive_pageSize_ofRows rows pageSize
  constructor
  · exact (rowsCancellably_alike provided positive addressed watched alike).leaves.symm
  · intro expression watched raced addressed
    rw [← (Feed.read_alike positive addressed (.execute expression) watched raced alike).leaves]
    unfold Run.leaves
    rw [Run.run_ask]
    cases (MemoryRows.ofRows rows pageSize).execute expression <;> rfl

def pagedNumbers : MemoryRows := .ofRows threeNumbers.rows (some 2)

def numberIn : Value → Option Int
  | .record _ [(_, .int number)] => some number
  | _ => none

theorem rowsCancellably_leaves_three_numbers :
    ∃ rows, (allNumbers.rowsCancellably (.ofProvider pagedNumbers.provider "Number") true).leaves
        ⟨.idle, .fresh, []⟩ = (.ok rows, ⟨some 3, none, none⟩) ∧
      rows.map numberIn = [some 3, some 2, some 1] := by
  have addressed : Run.endsWith (allNumbers.project (.ofProvider pagedNumbers.provider "Number"))
      ⟨.idle, .fresh, []⟩ (fun projected => (pagedNumbers.execute projected.expression).toOption.any
        fun rows => rows.length ≤ 2 ^ 64) = true := by
    rfl
  have fits (projected : Query) (after : RunState) (ran : (allNumbers.project
      (.ofProvider pagedNumbers.provider "Number")).run ⟨.idle, .fresh, []⟩ = .ok projected after) :
      pagedNumbers.Addresses projected.expression := by
    intro rows executes
    simp only [Run.endsWith, ran, executes] at addressed
    exact of_decide_eq_true addressed
  rw [(rowsCancellably_leaves rfl allNumbers true rfl fits).1]
  obtain ⟨rows, isRows, texts⟩ := exists_of_toOption_any
    ((allNumbers.rows (.ofProvider pagedNumbers.provider "Number")).leaves ⟨.idle, .fresh, []⟩).1
    (fun rows => rows.map numberIn == [some 3, some 2, some 1]) (by rfl)
  have feature : ((allNumbers.rows (.ofProvider pagedNumbers.provider "Number")).leaves
      ⟨.idle, .fresh, []⟩).2 = ⟨some 3, none, none⟩ := by rfl
  exact ⟨rows, Prod.ext isRows feature, beq_iff_eq.1 texts⟩

end Request

end QueryProjection
