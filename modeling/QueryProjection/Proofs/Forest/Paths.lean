import QueryProjection.Proofs.Forest.Defaults

set_option autoImplicit false

namespace QueryProjection

open Outcome

def MemberPath.EndsAt (rootType : String) (path : MemberPath) (typeName : String) : Prop :=
  match path.getLast? with
  | none => rootType = typeName
  | some last => last.element? = some typeName

section Append

variable {schema : Schema} {rootType typeName other element : String} {path more : MemberPath}
  {step last : PathStep}

theorem MemberPath.endsAt_append (path : MemberPath) (some_ : more ≠ []) (rootType typeName : String) :
    (path ++ more).EndsAt rootType other ↔ more.EndsAt typeName other := by
  obtain ⟨first, last, rfl⟩ : ∃ first last, more = first ++ [last] :=
    ⟨more.dropLast, more.getLast some_, (List.dropLast_concat_getLast some_).symm⟩
  rw [← List.append_assoc]
  simp [EndsAt]

theorem MemberPath.Leads.append (leads : path.Leads schema rootType)
    (ends : path.EndsAt rootType typeName) (later : more.Leads schema typeName) :
    (path ++ more).Leads schema rootType := by
  induction path generalizing rootType with
  | nil =>
    have same : rootType = typeName := ends
    exact same ▸ later
  | cons step rest ih =>
    obtain ⟨belongs, leads⟩ := leads
    refine ⟨belongs, ?_⟩
    cases rest with
    | nil =>
      have toType : step.element? = some typeName := ends
      rw [toType]
      exact later
    | cons next rest =>
      cases toElement : step.element? with
      | none => simp [toElement] at leads
      | some element =>
        rw [toElement] at leads
        exact ih leads ((endsAt_append [step] (by simp) rootType element).1 ends)

theorem Walk.append (walk : Walk schema rootType path) (ends : path.EndsAt rootType typeName)
    (later : Walk schema typeName more) : Walk schema rootType (path ++ more) := by
  induction walk with
  | nil rootType =>
    have same : rootType = typeName := ends
    exact same ▸ later
  | @last rootType step resolves =>
    cases more with
    | nil => exact .last resolves
    | cons first rest => exact .cons resolves ends later
  | @cons rootType element step next rest resolves leads _ ih =>
    have endsLater := (MemberPath.endsAt_append [step] (by simp) rootType element).1 ends
    exact .cons resolves leads (ih endsLater)

theorem Walk.withLast (walk : Walk schema typeName (path ++ [step]))
    (sameMember : last.member = step.member) (sameType : last.declaringType = step.declaringType) :
    Walk schema typeName (path ++ [last]) := by
  obtain ⟨sameName, sameMemberType⟩ := MemberDecl.mk.inj sameMember
  have resolves {declaring : String} (resolves : step.ResolvesOn schema declaring) :
      last.ResolvesOn schema declaring := by
    obtain ⟨declared, resolved⟩ := resolves
    exact ⟨sameType.trans declared, by rwa [sameName, sameMemberType]⟩
  induction path generalizing typeName with
  | nil => exact .last (resolves walk.first)
  | cons first rest ih =>
    cases rest with
    | nil =>
      cases walk with
      | cons resolvesFirst leads later => exact .cons resolvesFirst leads (ih later)
    | cons next rest =>
      cases walk with
      | cons resolvesFirst leads later => exact .cons resolvesFirst leads (ih later)

end Append

namespace Resolver

variable {resolver : Resolver} {rootType typeName element : String} {path target : MemberPath}
  {segments : List String} {filter : Option Filter} {arrangement : Arrangement}

theorem expandTarget_walk (walk : Walk resolver.schema rootType path)
    (ends : path.EndsAt rootType typeName)
    (leads : resolver.expandTarget path typeName segments filter arrangement =
      .ok (target, element)) :
    Walk resolver.schema rootType target ∧ target.EndsAt rootType element := by
  obtain ⟨-, before, last, rfl, added, -, toElement, -⟩ := expandTarget_eq_ok leads
  constructor
  · rw [List.append_assoc]
    exact walk.append ends (added.withLast rfl rfl)
  · simp only [MemberPath.EndsAt, List.getLast?_append, List.getLast?_singleton, Option.some_or]
    exact toElement

theorem selectTarget_walk {found : Option String} (walk : Walk resolver.schema rootType path)
    (ends : path.EndsAt rootType typeName)
    (leads : resolver.selectTarget path typeName segments = .ok (target, found)) :
    Walk resolver.schema rootType target ∧
      ∀ element, found = some element → target.EndsAt rootType element := by
  obtain ⟨added, some_, rfl, walkAdded, -, toElement⟩ := selectTarget_eq_ok leads
  refine ⟨walk.append ends walkAdded, fun element isFound => ?_⟩
  obtain ⟨last, isLast, leadsLast⟩ := toElement element isFound
  rw [MemberPath.endsAt_append path some_ rootType typeName, MemberPath.EndsAt, isLast]
  exact leadsLast

theorem Meets.walk {below : Bool} {items : List ClauseItem} {item : ExpandItem}
    (meets : Meets resolver below typeName path items item)
    (walk : Walk resolver.schema rootType path) (ends : path.EndsAt rootType typeName) :
    Walk resolver.schema rootType item.target := by
  induction meets with
  | here stands leads => exact (expandTarget_walk walk ends leads).1
  | belowExpand stands leads met ih =>
    obtain ⟨walkTarget, endsTarget⟩ := expandTarget_walk walk ends leads
    exact ih walkTarget endsTarget
  | belowSelect stands leads met ih =>
    obtain ⟨walkTarget, endsTarget⟩ := selectTarget_walk walk ends leads
    exact ih walkTarget (endsTarget _ rfl)

theorem Meets.last {below : Bool} {items : List ClauseItem} {item : ExpandItem}
    (meets : Meets resolver below typeName path items item) :
    ∃ before last element filter arrangement,
      item.target = before ++ [resolver.optionsOf element filter arrangement last] ∧
        last.element? = some element := by
  induction meets with
  | here stands leads =>
    obtain ⟨-, before, last, same, -, -, toElement, -⟩ := expandTarget_eq_ok leads
    exact ⟨_, last, _, _, _, same, toElement⟩
  | belowExpand stands leads met ih => exact ih
  | belowSelect stands leads met ih => exact ih

theorem expandItems_walk {clause : Option Clause} {found : List ExpandItem}
    (isFound : resolver.expandItems rootType clause = .ok found) {item : ExpandItem}
    (member : item ∈ found) : Walk resolver.schema rootType item.target := by
  match clause with
  | none =>
    simp only [expandItems, Except.ok.injEq] at isFound
    simp [← isFound] at member
  | some ⟨allSelected, items⟩ =>
    exact (meets_of_expandItems isFound member).walk (.nil rootType) rfl

theorem expandItems_last {clause : Option Clause} {found : List ExpandItem}
    (isFound : resolver.expandItems rootType clause = .ok found) {item : ExpandItem}
    (member : item ∈ found) :
    ∃ before last element filter arrangement,
      item.target = before ++ [resolver.optionsOf element filter arrangement last] ∧
        last.element? = some element := by
  match clause with
  | none =>
    simp only [expandItems, Except.ok.injEq] at isFound
    simp [← isFound] at member
  | some ⟨allSelected, items⟩ => exact (meets_of_expandItems isFound member).last

end Resolver

end QueryProjection
