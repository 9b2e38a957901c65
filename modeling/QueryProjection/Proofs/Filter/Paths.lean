import QueryProjection.Proofs.Filter.Built
import QueryProjection.Proofs.Forest.Walk
import QueryProjection.Proofs.Mapping.Reading

set_option autoImplicit false

namespace QueryProjection

open Outcome Evaluation

namespace Expr

def membersAlong : Expr → MemberPath → List Expr
  | _, [] => []
  | target, step :: rest =>
      let read := .member target step.memberName step.memberType
      read :: membersAlong read rest

def closed (guards : Bool) (first : Expr) (rest : List Expr) : Expr :=
  unlessNull (if guards then (first :: rest).dropLast else []) (rest.getLastD first)

end Expr

def Evaluation.closedOutcome (guards : Bool) (first : Outcome Value) (rest : List (Outcome Value)) :
    Outcome Value :=
  guarded (if guards then (first :: rest).dropLast else []) (rest.getLastD first)

theorem Expr.eval_closed (rows : List Value) (scope : Scope) (guards : Bool) (first : Expr)
    (rest : List Expr) :
    eval rows scope (closed guards first rest) =
      closedOutcome guards (eval rows scope first) (rest.map (eval rows scope)) := by
  have last : (rest.map (eval rows scope)).getLastD (eval rows scope first) =
      eval rows scope (rest.getLastD first) := by
    induction rest generalizing first with
    | nil => rfl
    | cons next rest ih => simpa only [List.map_cons, List.getLastD_cons] using ih next
  rw [closed, eval_unlessNull, closedOutcome, last]
  cases guards with
  | false => rfl
  | true => simp only [if_true, List.map_dropLast, List.map_cons]

namespace Binder

variable {binder : Binder}

theorem memberSteps_eq_ok {path previous : String} {guards : List Expr} {current expr : Expr}
    {segments : List String} {resolver : Resolver} {before target : MemberPath} {typeName : String}
    (sameSchema : resolver.schema = binder.schema)
    (named : segments ≠ [] → current.type.typeName? = some typeName)
    (reads : binder.memberSteps path (some previous) guards current segments = .ok expr)
    (followed : resolver.followFrom before typeName segments = .ok target) :
    ∃ added, target = before ++ added ∧ (∀ step ∈ added.dropLast, step.memberType.isCollection = false) ∧
      (added ≠ [] → current.type.isCollection = false) ∧
      expr = Expr.unlessNull
        (guards ++ if binder.context.nullPropagation then
          (current :: Expr.membersAlong current added).dropLast else [])
        ((Expr.membersAlong current added).getLastD current) := by
  induction segments generalizing previous guards current before typeName with
  | nil =>
    simp only [memberSteps, Except.ok.injEq] at reads
    simp only [Resolver.followFrom, Except.ok.injEq] at followed
    exact ⟨[], by simp [followed], by simp, by simp, by simp [← reads, Expr.membersAlong]⟩
  | cons segment rest ih =>
    have named := named (by simp)
    obtain ⟨declared, member, single, isNamed, resolved, reads⟩ := memberSteps_cons reads
    have sameType : declared = typeName := by
      simpa [DataType.typeName?, DataType.elementType, isNamed] using named
    subst sameType
    obtain ⟨found, step, element, resolved', made, leads, later⟩ :=
      Resolver.followFrom_cons followed
    -- The binder and the resolver look the segment up in one schema, so they go through one
    -- member.
    rw [sameSchema] at resolved'
    cases resolved.symm.trans resolved'
    obtain ⟨memberNamed, -, typed, -⟩ := Resolver.stepOf_eq_ok made
    rw [← memberNamed, ← typed] at reads
    have named' : rest ≠ [] →
        (Expr.member current step.memberName step.memberType).type.typeName? = some element :=
      leads
    obtain ⟨added, rfl, singles, inner, rfl⟩ := ih named' reads later
    refine ⟨step :: added, by simp, ?_, fun _ => single, ?_⟩
    · cases added with
      | nil => simp
      | cons next later =>
        rw [List.dropLast_cons_cons]
        exact List.forall_mem_cons.2 ⟨inner (by simp), singles⟩
    · cases binder.context.nullPropagation <;>
        simp only [Expr.membersAlong, List.getLastD_cons, Option.isSome_some, Bool.and_true,
          Bool.and_false, Bool.false_eq_true, if_true, if_false, List.append_nil,
          List.dropLast_cons_cons, List.append_assoc, List.singleton_append]

theorem memberPath_eq_ok {path : String} {expr : Expr} {resolver : Resolver} {target : MemberPath}
    (sameSchema : resolver.schema = binder.schema) (reads : binder.memberPath path = .ok expr)
    (followed : resolver.follow [] binder.elementType (Text.pathSegments path) = .ok target) :
    ∃ step rest, target = step :: rest ∧ Walk binder.schema binder.elementType target ∧
      (∀ other ∈ target.dropLast, other.memberType.isCollection = false) ∧
      expr = Expr.closed binder.context.nullPropagation
        (.member (.parameter binder.element) step.memberName step.memberType)
        (Expr.membersAlong (.member (.parameter binder.element) step.memberName step.memberType)
          rest) := by
  obtain ⟨added, -, rfl, walk, -⟩ := Resolver.follow_eq_ok followed
  rw [sameSchema] at walk
  obtain ⟨some_, followed⟩ := Resolver.follow_iff.1 followed
  have reads := memberSteps_of_memberPath reads
  obtain ⟨segment, rest, segments⟩ := List.exists_cons_of_ne_nil some_
  rw [segments] at followed reads
  obtain ⟨member, step, entered, resolved, made, leads, later⟩ := Resolver.followFrom_cons followed
  obtain ⟨typeName, member', -, isElement, resolved', reads⟩ := memberSteps_cons reads
  obtain rfl : binder.elementType = typeName := DataType.named.inj isElement
  rw [sameSchema] at resolved
  cases resolved.symm.trans resolved'
  obtain ⟨memberNamed, -, typed, -⟩ := Resolver.stepOf_eq_ok made
  rw [← memberNamed, ← typed] at reads
  have named : rest ≠ [] → (Expr.member (.parameter binder.element) step.memberName
      step.memberType).type.typeName? = some entered := leads
  -- The first member is read from the element, which is never null and needs no guard.
  simp only [Option.isSome_none, Bool.false_and, Bool.false_eq_true, if_false] at reads
  obtain ⟨more, same, singles, inner, rfl⟩ := memberSteps_eq_ok sameSchema named reads later
  simp only [List.nil_append, List.singleton_append] at same walk ⊢
  refine ⟨step, more, same, walk, ?_, rfl⟩
  rw [same]
  cases more with
  | nil => simp
  | cons next later =>
    rw [List.dropLast_cons_cons]
    exact List.forall_mem_cons.2 ⟨inner (by simp), singles⟩

end Binder

namespace Mapping

variable {mapping : Mapping}

theorem toSource_membersAlong {target source : Expr} {path : MemberPath} {typeName : String}
    {reads : List Expr} (translated : mapping.toSource target = .ok source)
    (named : target.type.typeName? = some typeName)
    (walk : Walk mapping.schema typeName path)
    (isRead : mapping.readAlong source path = .ok reads) :
    List.Forall₂ (fun expr read => mapping.toSource expr = .ok read)
      (Expr.membersAlong target path) reads := by
  induction path generalizing target source typeName reads with
  | nil =>
    simp only [readAlong, Except.ok.injEq] at isRead
    exact isRead ▸ .nil
  | cons step rest ih =>
    simp only [readAlong, bind_eq_ok, pure_eq_ok] at isRead
    obtain ⟨read, first, others, later, rfl⟩ := isRead
    have isMember : mapping.toSource (.member target step.memberName step.memberType) = .ok read := by
      simp only [toSource, named, translated, ok_bind]
      rw [← walk.first.1]
      exact first
    refine .cons isMember ?_
    cases walk with
    | last resolves =>
      simp only [readAlong, Except.ok.injEq] at later
      exact later ▸ .nil
    | cons resolves leads walk => exact ih isMember leads walk later

theorem toSource_anyOf {tests mapped : List Expr} (some_ : tests ≠ [])
    (each : List.Forall₂ (fun test read => mapping.toSource test = .ok read) tests mapped) :
    mapping.toSource (Binder.anyOf tests) = .ok (Binder.anyOf mapped) := by
  have grows (rest mapped : List Expr) (start read : Expr)
      (each : List.Forall₂ (fun test read => mapping.toSource test = .ok read) rest mapped)
      (first : mapping.toSource start = .ok read) :
      mapping.toSource (rest.foldl (fun all test => .binary .orElse all test) start) =
        .ok (mapped.foldl (fun all test => .binary .orElse all test) read) := by
    induction each generalizing start read with
    | nil => exact first
    | @cons test _ _ _ isTest _ ih =>
      refine ih (.binary .orElse start test) _ ?_
      simp only [toSource, first, isTest, ok_bind]
      rfl
  cases each with
  | nil => exact absurd rfl some_
  | cons first each => exact grows _ _ _ _ each first

theorem toSource_equalsNull {guards mapped : List Expr}
    (each : List.Forall₂ (fun guard read => mapping.toSource guard = .ok read) guards mapped) :
    ∃ tests, List.Forall₂ (fun test read => mapping.toSource test = .ok read)
        (guards.map Expr.equalsNull) tests ∧
      ∀ rows scope, List.Forall₂ (TestsNull rows scope) tests (mapped.map (eval rows scope)) := by
  induction each with
  | nil => exact ⟨[], .nil, fun rows scope => .nil⟩
  | @cons guard read guards mapped first each ih =>
    obtain ⟨tests, areTests, testNull⟩ := ih
    refine ⟨.binary .eq read (.constant .null (mapping.typeToSource guard.type)) :: tests,
      .cons ?_ areTests, fun rows scope => .cons (testsNull_equal rows scope read _)
        (testNull rows scope)⟩
    simp only [Expr.equalsNull, Expr.null, toSource, first, ok_bind]
    rfl

theorem toSource_unlessNull {guards mapped : List Expr} {expr read : Expr}
    (each : List.Forall₂ (fun guard read => mapping.toSource guard = .ok read) guards mapped)
    (translated : mapping.toSource expr = .ok read) :
    ∃ result, mapping.toSource (Expr.unlessNull guards expr) = .ok result ∧
      ∀ rows scope, eval rows scope result =
        guarded (mapped.map (eval rows scope)) (eval rows scope read) := by
  by_cases none_ : guards = []
  · subst none_
    cases each
    exact ⟨read, translated, fun rows scope => rfl⟩
  · obtain ⟨tests, areTests, testNull⟩ := toSource_equalsNull each
    obtain ⟨guard, rest, rfl⟩ := List.exists_cons_of_ne_nil none_
    have someTests : tests ≠ [] := by
      rintro rfl
      cases areTests
    rw [Expr.unlessNull_cons]
    have isTest := toSource_anyOf (by simp) areTests
    simp only [Expr.null, toSource, isTest, translated, ok_bind]
    exact ⟨_, rfl, fun rows scope => eval_conditional_anyOf (testNull rows scope) someTests read _ _⟩

theorem toSource_closed (guards : Bool) {first firstRead : Expr} {rest reads : List Expr}
    (isFirst : mapping.toSource first = .ok firstRead)
    (each : List.Forall₂ (fun expr read => mapping.toSource expr = .ok read) rest reads) :
    ∃ result, mapping.toSource (Expr.closed guards first rest) = .ok result ∧
      ∀ rows scope, eval rows scope result =
        closedOutcome guards (eval rows scope firstRead) (reads.map (eval rows scope)) := by
  have last : mapping.toSource (rest.getLastD first) = .ok (reads.getLastD firstRead) := by
    induction each generalizing first firstRead with
    | nil => exact isFirst
    | cons isNext _ ih => simpa only [List.getLastD_cons] using ih isNext
  have passed : List.Forall₂ (fun expr read => mapping.toSource expr = .ok read)
      (if guards then (first :: rest).dropLast else [])
      (if guards then (firstRead :: reads).dropLast else []) := by
    cases guards with
    | false => exact .nil
    | true =>
      simp only [if_true, List.dropLast_eq_take, List.length_cons, each.length_eq]
      exact List.forall₂_take _ (.cons isFirst each)
  obtain ⟨result, translated, evaluates⟩ := toSource_unlessNull passed last
  refine ⟨result, translated, fun rows scope => ?_⟩
  rw [evaluates, ← Expr.eval_closed, Expr.closed, Expr.eval_unlessNull]

end Mapping

end QueryProjection
