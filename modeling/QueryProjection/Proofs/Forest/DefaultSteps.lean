import Mathlib.Data.List.Perm.Subperm
import Mathlib.Logic.Function.Iterate
import QueryProjection.Proofs.Forest.Walk
import QueryProjection.Proofs.Schema.Types

set_option autoImplicit false

namespace QueryProjection

open Outcome

namespace Schema

def complexNames (schema : Schema) : List String :=
  (schema.types.filter fun typeDecl => typeDecl.kind = .complex).map TypeDecl.name

theorem length_complexNames_le (schema : Schema) :
    schema.complexNames.length ≤ schema.types.length := by
  rw [complexNames, List.length_map]
  exact List.length_filter_le _ _

theorem mem_complexNames {schema : Schema} {ty : DataType} {element : String}
    (complex : schema.targetKind ty = .ok .complex) (named : ty.typeName? = some element) :
    element ∈ schema.complexNames := by
  obtain ⟨typeDecl, registered, rfl, isKind⟩ := targetKind_eq_ok complex named
  split at isKind
  next isComplex => exact List.mem_map_of_mem (List.mem_filter.2 ⟨registered, by simp [isComplex]⟩)
  next => contradiction

end Schema

def Schema.isDefault (schema : Schema) (path : MemberPath) (member : MemberDecl) : Bool :=
  match schema.targetKind member.ty, member.ty.typeName? with
  | .ok .primitive, _ => true
  | .ok .complex, some element => !Resolver.passes path element
  | _, _ => false

namespace Resolver

variable {resolver : Resolver} {typeName : String} {path : MemberPath}

def addDefaultBy (resolver : Resolver) (below : String → MemberPath → Forest → Outcome Forest)
    (typeName : String) (path : MemberPath) (forest : Forest) (member : MemberDecl) :
    Outcome Forest := do
  let kind ← resolver.schema.targetKind member.ty
  let step ← resolver.stepOf typeName member
  match kind, member.ty.typeName? with
  | .primitive, _ => return forest.addSelect (path ++ [step])
  | .complex, some element =>
      if passes path element then return forest
      else below element (path ++ [step]) forest
  | _, _ => return forest

def addDefault (resolver : Resolver) : String → MemberPath → Forest → MemberDecl → Outcome Forest :=
  resolver.addDefaultBy resolver.addDefaults

theorem addDefaultBy_eq_ok {below : String → MemberPath → Forest → Outcome Forest}
    {member : MemberDecl} {forest forest' : Forest}
    (added : resolver.addDefaultBy below typeName path forest member = .ok forest') :
    ∃ kind step, resolver.schema.targetKind member.ty = .ok kind ∧
      resolver.stepOf typeName member = .ok step ∧
      (kind = .primitive ∧ forest' = forest.addSelect (path ++ [step]) ∨
        (∃ element, kind = .complex ∧ member.ty.typeName? = some element ∧
          passes path element = false ∧ below element (path ++ [step]) forest = .ok forest') ∨
        resolver.schema.isDefault path member = false ∧ forest' = forest) := by
  simp only [addDefaultBy, bind_eq_ok] at added
  obtain ⟨kind, isKind, step, made, added⟩ := added
  refine ⟨kind, step, isKind, made, ?_⟩
  simp only [Schema.isDefault, isKind]
  split at added
  next => exact .inl ⟨rfl, (pure_eq_ok.1 added).symm⟩
  next element named =>
    split at added
    next passed => exact .inr (.inr ⟨by simp [named, passed], (pure_eq_ok.1 added).symm⟩)
    next new => exact .inr (.inl ⟨element, rfl, named, by simpa using new, added⟩)
  next notPrimitive notComplex =>
    refine .inr (.inr ⟨?_, (pure_eq_ok.1 added).symm⟩)
    split
    next same => exact absurd (Except.ok.inj same) notPrimitive
    next element same named => exact absurd named (notComplex element (Except.ok.inj same))
    next => rfl

theorem addDefaultBy_congr {below below' : String → MemberPath → Forest → Outcome Forest}
    {member : MemberDecl} (forest : Forest)
    (alike : ∀ (element : String) (step : PathStep),
      resolver.schema.targetKind member.ty = .ok .complex → member.ty.typeName? = some element →
      passes path element = false → resolver.stepOf typeName member = .ok step →
        below element (path ++ [step]) = below' element (path ++ [step])) :
    resolver.addDefaultBy below typeName path forest member =
      resolver.addDefaultBy below' typeName path forest member := by
  unfold addDefaultBy
  refine bind_congr_of_ok fun kind isKind => bind_congr_of_ok fun step made => ?_
  split
  next => rfl
  next element named =>
    split
    next => rfl
    next new => rw [alike element step isKind named (by simpa using new) made]
  next => rfl

/-- The way from one level of default members down to another, which is behind `more`. -/
inductive Descends (resolver : Resolver) (typeName : String) (path : MemberPath) :
    (more : MemberPath) → (element : String) → Prop where
  | here : Descends resolver typeName path [] typeName
  | deeper {more : MemberPath} {element next : String} {member : MemberDecl} {step : PathStep}
      (earlier : Descends resolver typeName path more element)
      (listed : resolver.schema.Lists element member)
      (complex : resolver.schema.targetKind member.ty = .ok .complex)
      (leads : member.ty.typeName? = some next) (new : passes (path ++ more) next = false)
      (made : resolver.stepOf element member = .ok step) :
      Descends resolver typeName path (more ++ [step]) next

theorem passes_append (before after : MemberPath) (element : String) :
    passes (before ++ after) element = (passes before element || passes after element) :=
  List.any_append

theorem Descends.entered {more : MemberPath} {element : String}
    (descends : resolver.Descends typeName path more element) :
    ∃ entered : List String, more.map PathStep.element? = entered.map some ∧ entered.Nodup ∧
      ∀ name ∈ entered, name ∈ resolver.schema.complexNames ∧ passes path name = false := by
  induction descends with
  | here => exact ⟨[], rfl, List.nodup_nil, by simp⟩
  | @deeper more element next member step earlier listed complex leads new made ih =>
    obtain ⟨entered, elements, apart, known⟩ := ih
    have toNext : step.element? = some next := by
      rw [PathStep.element?, (stepOf_eq_ok made).2.2.1, leads]
    rw [passes_append, Bool.or_eq_false_iff] at new
    -- A type that has been entered would be passed by the path.
    have notEntered : next ∉ entered := by
      intro isEntered
      have passed : some next ∈ more.map PathStep.element? :=
        elements ▸ List.mem_map_of_mem isEntered
      obtain ⟨passing, isStep, leadsToo⟩ := List.mem_map.1 passed
      have notPassed := List.any_eq_false.1 new.2 passing isStep
      simp [leadsToo] at notPassed
    refine ⟨entered ++ [next], by simp [elements, toNext], ?_, ?_⟩
    · simpa [List.nodup_append] using ⟨apart, fun name isEntered same => notEntered (same ▸ isEntered)⟩
    · intro name isName
      rcases List.mem_append.1 isName with before | last
      · exact known name before
      · rw [List.mem_singleton.1 last]
        exact ⟨Schema.mem_complexNames complex leads, new.1⟩

theorem Descends.length_le {more : MemberPath} {element : String}
    (descends : resolver.Descends typeName path more element) :
    more.length ≤ resolver.schema.complexNames.length := by
  obtain ⟨entered, elements, apart, known⟩ := descends.entered
  have sameLength : more.length = entered.length := by
    simpa using congrArg List.length elements
  rw [sameLength]
  exact (apart.subperm fun name isEntered => (known name isEntered).1).length_le

theorem defaultsWithin_succ (fuel : Nat) (forest : Forest) :
    resolver.defaultsWithin (fuel + 1) typeName path forest = (do
      let members ← resolver.schema.members typeName
      members.foldlM (resolver.addDefaultBy (resolver.defaultsWithin fuel) typeName path) forest) :=
  rfl

def defaultsStep (resolver : Resolver) (below : String → MemberPath → Forest → Outcome Forest) :
    String → MemberPath → Forest → Outcome Forest :=
  fun typeName path forest => do
    let members ← resolver.schema.members typeName
    members.foldlM (resolver.addDefaultBy below typeName path) forest

theorem defaultsWithin_eq_iterate (fuel : Nat) :
    resolver.defaultsWithin fuel = resolver.defaultsStep^[fuel] fun _ _ forest => .ok forest := by
  induction fuel with
  | zero => rfl
  | succ fuel ih =>
    rw [Function.iterate_succ_apply', ← ih]
    rfl

theorem iterate_defaultsStep_congr {fuel : Nat} {more : MemberPath} {element : String}
    (descends : resolver.Descends typeName path more element)
    (enough : resolver.schema.complexNames.length < fuel + more.length)
    (below below' : String → MemberPath → Forest → Outcome Forest) :
    resolver.defaultsStep^[fuel] below element (path ++ more) =
      resolver.defaultsStep^[fuel] below' element (path ++ more) := by
  -- Each step down is one of those unrolled and enters one type more.
  induction fuel generalizing more element with
  | zero =>
    have most := descends.length_le
    omega
  | succ fuel ih =>
    rw [Function.iterate_succ_apply', Function.iterate_succ_apply']
    funext forest
    refine bind_congr_of_ok fun members listed => foldlM_congr fun member isMember before => ?_
    refine addDefaultBy_congr before fun next step complex leads new made => ?_
    rw [List.append_assoc]
    refine ih (descends.deeper ⟨members, listed, isMember⟩ complex leads new made) ?_
    rw [List.length_append, List.length_singleton]
    omega

theorem iterate_defaultsStep {fuel : Nat} (enough : resolver.schema.complexNames.length < fuel)
    (below : String → MemberPath → Forest → Outcome Forest) :
    resolver.defaultsStep^[fuel] below typeName path = resolver.addDefaults typeName path := by
  have start : resolver.Descends typeName path [] typeName := .here
  have congr {fuel' : Nat} (enough' : resolver.schema.complexNames.length < fuel') :=
    iterate_defaultsStep_congr start enough'
  rw [List.append_nil] at congr
  have most := Nat.lt_succ_of_le resolver.schema.length_complexNames_le
  change _ = resolver.defaultsWithin (resolver.schema.types.length + 1) typeName path
  rw [defaultsWithin_eq_iterate]
  rcases Nat.le_total fuel (resolver.schema.types.length + 1) with fewer | more
  · obtain ⟨others, same⟩ := Nat.exists_eq_add_of_le fewer
    rw [same, Function.iterate_add_apply]
    exact congr enough _ _
  · obtain ⟨others, rfl⟩ := Nat.exists_eq_add_of_le more
    rw [Function.iterate_add_apply]
    exact congr most _ _

theorem addDefaults_eq (forest : Forest) :
    resolver.addDefaults typeName path forest = (do
      let members ← resolver.schema.members typeName
      members.foldlM (resolver.addDefault typeName path) forest) := by
  have most := resolver.schema.length_complexNames_le
  have unrolled := @iterate_defaultsStep resolver typeName path (resolver.schema.types.length + 2)
    (by omega) fun _ _ forest => .ok forest
  rw [Function.iterate_succ_apply', ← defaultsWithin_eq_iterate] at unrolled
  exact (congrFun unrolled forest).symm

structure KeepsDefaults (resolver : Resolver) (place : String → MemberPath → Prop)
    (holds : Forest → Prop) : Prop where
  selectsDefault : ∀ {typeName path members member step}, place typeName path →
    resolver.schema.members typeName = .ok members → member ∈ members →
    resolver.schema.targetKind member.ty = .ok .primitive →
    resolver.stepOf typeName member = .ok step →
      ∀ forest, holds forest → holds (forest.addSelect (path ++ [step]))
  opensDefault : ∀ {typeName path members member step element}, place typeName path →
    resolver.schema.members typeName = .ok members → member ∈ members →
    resolver.schema.targetKind member.ty = .ok .complex → member.ty.typeName? = some element →
    passes path element = false → resolver.stepOf typeName member = .ok step →
      place element (path ++ [step])

theorem KeepsDefaults.defaultsWithin {place : String → MemberPath → Prop} {holds : Forest → Prop}
    {forest forest' : Forest} {fuel : Nat} (keeps : resolver.KeepsDefaults place holds)
    (here : place typeName path) (start : holds forest)
    (added : resolver.defaultsWithin fuel typeName path forest = .ok forest') : holds forest' := by
  induction fuel generalizing typeName path forest forest' with
  | zero =>
    simp only [Resolver.defaultsWithin, Except.ok.injEq] at added
    exact added ▸ start
  | succ fuel ih =>
    obtain ⟨members, listed, folded⟩ := bind_eq_ok.1 (defaultsWithin_succ fuel forest ▸ added)
    refine foldlM_preserves holds (fun member isMember before after held stepped => ?_) start folded
    obtain ⟨kind, step, isKind, made, stepped⟩ := addDefaultBy_eq_ok stepped
    obtain ⟨rfl, rfl⟩ | ⟨element, rfl, leads, new, later⟩ | ⟨-, rfl⟩ := stepped
    · exact keeps.selectsDefault here listed isMember isKind made before held
    · exact ih (keeps.opensDefault here listed isMember isKind leads new made) held later
    · exact held

theorem KeepsDefaults.addDefaults {place : String → MemberPath → Prop} {holds : Forest → Prop}
    {forest forest' : Forest} (keeps : resolver.KeepsDefaults place holds) (here : place typeName path) (start : holds forest)
    (added : resolver.addDefaults typeName path forest = .ok forest') : holds forest' :=
  keeps.defaultsWithin here start added

end Resolver

end QueryProjection
