import QueryProjection.Forest.Resolution
import QueryProjection.Proofs.Schema.Lookup

set_option autoImplicit false

namespace QueryProjection

def PathStep.IsPlain (step : PathStep) : Prop :=
  step.filter = none ∧ step.arrangement = none

/-- The step is the member that its declaring type has under its name. -/
def PathStep.ResolvesOn (schema : Schema) (typeName : String) (step : PathStep) : Prop :=
  step.declaringType = typeName ∧
    schema.resolve typeName step.memberName = .ok ⟨step.memberName, step.memberType⟩

/-- Every step is resolved on the type that the step before leads to. -/
inductive Walk (schema : Schema) : String → MemberPath → Prop where
  | nil (typeName : String) : Walk schema typeName []
  | last {typeName : String} {step : PathStep} (resolves : step.ResolvesOn schema typeName) :
      Walk schema typeName [step]
  | cons {typeName element : String} {step next : PathStep} {rest : MemberPath}
      (resolves : step.ResolvesOn schema typeName) (leads : step.element? = some element)
      (later : Walk schema element (next :: rest)) : Walk schema typeName (step :: next :: rest)

theorem Walk.first {schema : Schema} {typeName : String} {step : PathStep} {rest : MemberPath}
    (walk : Walk schema typeName (step :: rest)) : step.ResolvesOn schema typeName := by
  cases walk with
  | last resolves => exact resolves
  | cons resolves _ _ => exact resolves

theorem Walk.start {schema : Schema} {typeName : String} {path later : MemberPath}
    (walk : Walk schema typeName (path ++ later)) : Walk schema typeName path := by
  induction path generalizing typeName with
  | nil => exact .nil typeName
  | cons step rest ih =>
    cases rest with
    | nil => exact .last walk.first
    | cons next rest =>
      cases walk with
      | cons resolves leads walkLater => exact .cons resolves leads (ih walkLater)

namespace Resolver

theorem stepOf_eq_ok {resolver : Resolver} {typeName : String} {member : MemberDecl}
    {step : PathStep} (made : resolver.stepOf typeName member = .ok step) :
    step.memberName = member.name ∧ step.declaringType = typeName ∧
      step.memberType = member.ty ∧ step.IsPlain := by
  simp only [stepOf, Outcome.bind_eq_ok, Outcome.pure_eq_ok] at made
  obtain ⟨kind, -, rfl⟩ := made
  exact ⟨rfl, rfl, rfl, rfl, rfl⟩

theorem stepOf_resolves {resolver : Resolver} {typeName name : String} {member : MemberDecl}
    {step : PathStep} (resolved : resolver.schema.resolve typeName name = .ok member)
    (made : resolver.stepOf typeName member = .ok step) :
    step.ResolvesOn resolver.schema typeName := by
  obtain ⟨named, declared, typed, -⟩ := stepOf_eq_ok made
  refine ⟨declared, ?_⟩
  rw [named, typed]
  exact Schema.resolve_own_name resolved

theorem followFrom_cons {resolver : Resolver} {path target : MemberPath} {typeName name : String}
    {rest : List String}
    (followed : resolver.followFrom path typeName (name :: rest) = .ok target) :
    ∃ member step element, resolver.schema.resolve typeName name = .ok member ∧
      resolver.stepOf typeName member = .ok step ∧ (rest ≠ [] → step.element? = some element) ∧
      resolver.followFrom (path ++ [step]) element rest = .ok target := by
  cases rest with
  | nil =>
    simp only [followFrom, Outcome.bind_eq_ok, Outcome.pure_eq_ok] at followed
    obtain ⟨member, resolved, step, made, rfl⟩ := followed
    exact ⟨member, step, typeName, resolved, made, by simp, rfl⟩
  | cons next rest =>
    simp only [followFrom, Outcome.bind_eq_ok] at followed
    obtain ⟨member, resolved, step, made, followed⟩ := followed
    split at followed
    next element leads => exact ⟨member, step, element, resolved, made, fun _ => leads, followed⟩
    next => simp at followed

theorem followFrom_eq_ok {resolver : Resolver} {path target : MemberPath} {typeName : String}
    {segments : List String} (nonempty : segments ≠ [])
    (followed : resolver.followFrom path typeName segments = .ok target) :
    ∃ added, added ≠ [] ∧ target = path ++ added ∧ Walk resolver.schema typeName added ∧
      ∀ step ∈ added, step.IsPlain := by
  induction segments generalizing path typeName with
  | nil => exact absurd rfl nonempty
  | cons name rest ih =>
    obtain ⟨member, step, element, resolved, made, leads, followed⟩ := followFrom_cons followed
    have resolves := stepOf_resolves resolved made
    have plain := (stepOf_eq_ok made).2.2.2
    by_cases more : rest = []
    · subst more
      simp only [followFrom, Except.ok.injEq] at followed
      exact ⟨[step], by simp, followed.symm, .last resolves, by simpa using plain⟩
    · obtain ⟨added, some_, rfl, walk, plainLater⟩ := ih more followed
      obtain ⟨first, later, rfl⟩ := List.exists_cons_of_ne_nil some_
      refine ⟨step :: first :: later, by simp, by simp, ?_, ?_⟩
      · exact .cons resolves (leads more) walk
      · exact List.forall_mem_cons.2 ⟨plain, plainLater⟩

theorem follow_iff {resolver : Resolver} {path target : MemberPath} {typeName : String}
    {segments : List String} :
    resolver.follow path typeName segments = .ok target ↔
      segments ≠ [] ∧ resolver.followFrom path typeName segments = .ok target := by
  unfold follow
  split
  next empty => simp [invalidExpand, List.isEmpty_iff.1 empty]
  next some_ => exact (and_iff_right (by simpa using some_)).symm

theorem follow_eq_ok {resolver : Resolver} {path target : MemberPath} {typeName : String}
    {segments : List String} (followed : resolver.follow path typeName segments = .ok target) :
    ∃ added, added ≠ [] ∧ target = path ++ added ∧ Walk resolver.schema typeName added ∧
      ∀ step ∈ added, step.IsPlain := by
  obtain ⟨some_, followed⟩ := follow_iff.1 followed
  exact followFrom_eq_ok some_ followed

theorem followFrom_elsewhere {resolver : Resolver} {path target : MemberPath} {typeName : String}
    {segments : List String}
    (followed : resolver.followFrom path typeName segments = .ok target) :
    ∃ added, target = path ++ added ∧
      ∀ other, resolver.followFrom other typeName segments = .ok (other ++ added) := by
  fun_induction followFrom resolver path typeName segments with
  | case1 path =>
    cases followed
    exact ⟨[], by simp, fun other => by simp [followFrom]⟩
  | case2 path typeName name =>
    simp only [Outcome.bind_eq_ok, Outcome.pure_eq_ok] at followed
    obtain ⟨member, resolved, step, made, rfl⟩ := followed
    refine ⟨[step], rfl, fun other => ?_⟩
    simp only [followFrom, resolved, made, Outcome.ok_bind]
    rfl
  | case3 path typeName name next rest ih =>
    simp only [Outcome.bind_eq_ok] at followed
    obtain ⟨member, resolved, step, made, followed⟩ := followed
    split at followed
    next element leads =>
      obtain ⟨added, rfl, elsewhere⟩ := ih step element followed
      refine ⟨step :: added, by simp, fun other => ?_⟩
      simp only [followFrom, resolved, made, leads, Outcome.ok_bind]
      simpa using elsewhere (other ++ [step])
    next => simp at followed

theorem follow_elsewhere {resolver : Resolver} {path added : MemberPath} {typeName : String}
    {segments : List String}
    (followed : resolver.follow path typeName segments = .ok (path ++ added)) (other : MemberPath) :
    resolver.follow other typeName segments = .ok (other ++ added) := by
  obtain ⟨some_, followed⟩ := follow_iff.1 followed
  obtain ⟨more, same, elsewhere⟩ := followFrom_elsewhere followed
  rw [follow_iff, elsewhere other, List.append_cancel_left same]
  exact ⟨some_, rfl⟩

end Resolver

theorem MemberPath.withOptions_append (filter : Option ScopedFilter)
    (arrangement : Option Arrangement) (path : MemberPath) (last : PathStep) :
    withOptions filter arrangement (path ++ [last]) =
      path ++ [{ last with filter := filter, arrangement := arrangement }] := by
  induction path with
  | nil => rfl
  | cons step rest ih =>
    obtain ⟨next, later, shape⟩ := List.exists_cons_of_ne_nil (show rest ++ [last] ≠ [] by simp)
    simp only [List.cons_append, shape, withOptions] at ih ⊢
    rw [ih]

namespace Resolver

def optionsOf (resolver : Resolver) (element : String) (filter : Option Filter)
    (arrangement : Arrangement) (step : PathStep) : PathStep :=
  { step with
    filter := filter.map fun filter => ⟨filter, element, resolver.context⟩
    arrangement := if arrangement.isEmpty then none else some arrangement }

theorem expandTarget_eq_ok {resolver : Resolver} {path target : MemberPath}
    {typeName element : String} {segments : List String} {filter : Option Filter}
    {arrangement : Arrangement}
    (found : resolver.expandTarget path typeName segments filter arrangement =
      .ok (target, element)) :
    target.length ≤ resolver.maxExpandDepth ∧
      ∃ before last, target = path ++ before ++ [resolver.optionsOf element filter arrangement last] ∧
        Walk resolver.schema typeName (before ++ [last]) ∧
        (∀ step ∈ before ++ [last], step.IsPlain) ∧ last.element? = some element ∧
        resolver.schema.targetKind last.memberType = .ok .entity ∧
        resolver.follow path typeName segments = .ok (path ++ before ++ [last]) := by
  simp only [expandTarget, Outcome.bind_eq_ok] at found
  obtain ⟨followed, follows, found⟩ := found
  obtain ⟨added, some_, rfl, walk, plain⟩ := follow_eq_ok follows
  obtain ⟨before, last, rfl⟩ : ∃ before last, added = before ++ [last] :=
    ⟨added.dropLast, added.getLast some_, (List.dropLast_concat_getLast some_).symm⟩
  split at found
  next => simp [invalidExpand] at found
  next within =>
    simp only [Outcome.bind_eq_ok] at found
    obtain ⟨kind, target_, found⟩ := found
    split at found
    next named =>
      simp only [Outcome.pure_eq_ok, Prod.mk.injEq] at found
      obtain ⟨rfl, rfl⟩ := found
      -- Only the last step takes the options of the item.
      rw [← List.append_assoc, MemberPath.withOptions_append]
      refine ⟨by simpa using within, before, last, rfl, walk, plain, ?_, ?_, ?_⟩
      · simpa [PathStep.element?] using named
      · simpa using target_
      · rw [follows, List.append_assoc]
    next => simp [invalidExpand] at found

theorem selectTarget_iff {resolver : Resolver} {path target : MemberPath} {typeName : String}
    {segments : List String} {element : Option String} :
    resolver.selectTarget path typeName segments = .ok (target, element) ↔
      resolver.follow path typeName segments = .ok target ∧
      ∃ kind, resolver.schema.targetKind ((target.getLast?.map PathStep.memberType).getD .object) =
          .ok kind ∧
        element = if kind = .complex then
          ((target.getLast?.map PathStep.memberType).getD DataType.object).typeName? else none := by
  simp only [selectTarget, Outcome.bind_eq_ok]
  constructor
  · rintro ⟨followed, follows, kind, isKind, found⟩
    cases kind <;> cases Outcome.pure_eq_ok.1 found <;> exact ⟨follows, _, isKind, rfl⟩
  · rintro ⟨follows, kind, isKind, rfl⟩
    refine ⟨target, follows, kind, isKind, ?_⟩
    cases kind <;> rfl

theorem selectTarget_eq_ok {resolver : Resolver} {path target : MemberPath} {typeName : String}
    {segments : List String} {element : Option String}
    (found : resolver.selectTarget path typeName segments = .ok (target, element)) :
    ∃ added, added ≠ [] ∧ target = path ++ added ∧ Walk resolver.schema typeName added ∧
      (∀ step ∈ added, step.IsPlain) ∧
      ∀ name, element = some name → ∃ last ∈ added.getLast?, last.element? = some name := by
  obtain ⟨follows, kind, -, rfl⟩ := selectTarget_iff.1 found
  obtain ⟨added, some_, rfl, walk, plain⟩ := follow_eq_ok follows
  refine ⟨added, some_, rfl, walk, plain, fun name named => ?_⟩
  refine ⟨added.getLast some_, List.getLast?_eq_some_getLast some_, ?_⟩
  split at named
  next =>
    simpa [PathStep.element?, List.getLast?_append, List.getLast?_eq_some_getLast some_] using named
  next => simp at named

end Resolver

end QueryProjection
