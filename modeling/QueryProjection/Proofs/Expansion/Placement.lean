import QueryProjection.Proofs.Expansion.Shape
import QueryProjection.Proofs.Mapping.Includes
import QueryProjection.Proofs.Schema.Types

set_option autoImplicit false

namespace QueryProjection

open Outcome Evaluation

structure ExpansionStep.LeadsOn (schema : Schema) (typeName element : String)
    (step : ExpansionStep) : Prop where
  declared : step.parentType = typeName
  listed : schema.Lists typeName ⟨step.memberName, step.memberType⟩
  named : step.memberType.typeName? = some element

inductive ExpansionSteps.Passes (mapping : Mapping) : String → ExpansionSteps → Prop where
  | last {typeName element : String} {step : ExpansionStep}
      (leads : step.LeadsOn mapping.schema typeName element)
      (mapped : (mapping.mapPath? typeName step.memberName).isSome = true) :
      Passes mapping typeName [step]
  | cons {typeName element : String} {step next : ExpansionStep} {rest : ExpansionSteps}
      (leads : step.LeadsOn mapping.schema typeName element)
      (later : Passes mapping element (next :: rest)) : Passes mapping typeName (step :: next :: rest)

namespace Refiner

def followed (change : ExpansionStep → Expr → Outcome Expr) (step : ExpansionStep) :
    ExpansionSteps → Expr → Outcome Expr
  | [], value => change step value
  | next :: later, value => descend change next later value

variable {refiner : Refiner} {parameters : ProjectionParameters} {fuel depth : Nat}
  {tree : IncludeTree} {asked : Refinements} {modelType element : String} {source read expr : Expr}
  {value changed refined : Expr} {memberType : DataType} {member : MemberDecl}
  {options : ExpandOptions} {kind : RefinementKind} {step next : ExpansionStep}
  {rest later : ExpansionSteps} {change : ExpansionStep → Expr → Outcome Expr}

theorem followBindings_cons (name : String) (value : Expr) (bindings : List (String × Expr)) :
    followBindings change step rest ((name, value) :: bindings) =
      ((if leadsTo step name value then followed change step rest value else .ok value) >>=
        fun first => do return (name, first) :: (← followBindings change step rest bindings)) := by
  cases rest with
  | nil =>
    simp only [followBindings, followed]
    split <;> rfl
  | cons next later =>
    simp only [followBindings, followed]
    split <;> rfl

theorem followBindings_related {relation relation' : MemberDecl → String × Expr → Prop}
    {members : List MemberDecl} {bindings results : List (String × Expr)}
    (related : List.Forall₂ relation members bindings)
    (keeps : ∀ member ∈ members, ∀ name value, relation member (name, value) →
      leadsTo step name value = false → relation' member (name, value))
    (changes : ∀ member ∈ members, ∀ name value changed, relation member (name, value) →
      leadsTo step name value = true → followed change step rest value = .ok changed →
      relation' member (name, changed))
    (follows : followBindings change step rest bindings = .ok results) :
    List.Forall₂ relation' members results := by
  induction related generalizing results with
  | nil =>
    simp only [followBindings, Except.ok.injEq] at follows
    exact follows ▸ .nil
  | @cons member binding members bindings first _ ih =>
    obtain ⟨name, value⟩ := binding
    obtain ⟨keepsFirst, keepsRest⟩ := List.forall_mem_cons.1 keeps
    obtain ⟨changesFirst, changesRest⟩ := List.forall_mem_cons.1 changes
    simp only [followBindings_cons, bind_eq_ok, pure_eq_ok] at follows
    obtain ⟨result, isResult, others, areOthers, rfl⟩ := follows
    refine .cons ?_ (ih keepsRest changesRest areOthers)
    by_cases leads : leadsTo step name value = true
    · rw [if_pos leads] at isResult
      exact changesFirst name value result first leads isResult
    · rw [if_neg leads, Except.ok.injEq] at isResult
      exact isResult ▸ keepsFirst name value first (by simpa using leads)

section Fitted

variable {shaped shaped' : String → Expr → Nat → Expr → Prop}

theorem Fitted.typed (fitted : Fitted refiner shaped options memberType read depth value)
    (named : memberType.typeName? = some element) :
    value.type.listEquivalent memberType = true := by
  cases fitted with
  | same kind _ => exact absurd kind (Schema.targetKind_ne_primitive named)
  | converted kind _ => exact absurd kind (Schema.targetKind_ne_primitive named)
  | items ty emptyType holds many refined isShaped selects typed => exact typed
  | record holds single isShaped => exact listEquivalent_record holds.named single

theorem Fitted.changeMember
    (fitted : Fitted refiner shaped options step.memberType read depth value)
    (records : ∀ element source depth expr, shaped element source depth expr →
      ∃ bindings, expr = .construct (.named element) bindings)
    (accepts : options.Accepts kind) (made : refiner.changeMember kind step value = .ok changed) :
    Fitted refiner shaped (options.withStep kind step) step.memberType read depth changed := by
  obtain ⟨element, sequenceChange, named, asks, lands⟩ := lands_of_changeMember made
  cases fitted with
  | same kind _ => exact absurd kind (Schema.targetKind_ne_primitive named)
  | converted kind _ => exact absurd kind (Schema.targetKind_ne_primitive named)
  | items ty emptyType holds many refined isShaped selects typed =>
    cases holds.named.symm.trans named
    obtain ⟨inner, landsOn, rfl⟩ := Lands.guarded_iff.1 lands
    obtain ⟨sequence, isSequence, selected⟩ :=
      selects.landsBelow refined.noSelection (landsOn.landsBelow selects.hasSelection)
    exact .items ty emptyType holds many (refined.withStep accepts asks isSequence) isShaped selected
      typed
  | record holds single isShaped =>
    obtain ⟨bindings, rfl⟩ := records _ _ _ _ isShaped
    obtain ⟨inner, landsOn, -⟩ := Lands.guarded_iff.1 lands
    exact absurd landsOn (not_landsOn_construct _ _)

theorem descend_emptyWhenNull {whenNull ty} (readable : read.Readable)
    (free : whenNull.ConstructFree)
    (descended : descend change next later (Mapping.emptyWhenNull read whenNull value ty) =
      .ok changed) :
    ∃ inner, descend change next later value = .ok inner ∧
      changed = Mapping.emptyWhenNull read whenNull inner ty := by
  have freeTest : read.equalsNull.ConstructFree := ⟨readable.constructFree, trivial⟩
  simp only [Mapping.emptyWhenNull, descend, descend_constructFree change next later _ freeTest,
    descend_constructFree change next later _ free, ok_bind, bind_eq_ok, pure_eq_ok] at descended
  obtain ⟨inner, isInner, rfl⟩ := descended
  exact ⟨inner, isInner, rfl⟩

theorem Fitted.descend (fitted : Fitted refiner shaped options memberType read depth value)
    (readable : read.Readable) (named : memberType.typeName? = some element)
    (keeps : ∀ source depth expr refined, source.Readable → shaped element source depth expr →
      Refiner.descend change next later expr = .ok refined → shaped' element source depth refined)
    (descended : Refiner.descend change next later value = .ok changed) :
    Fitted refiner shaped' options memberType read depth changed := by
  cases fitted with
  | same kind _ => exact absurd kind (Schema.targetKind_ne_primitive named)
  | converted kind _ => exact absurd kind (Schema.targetKind_ne_primitive named)
  | items ty emptyType holds many refined isShaped selects typed =>
    cases holds.named.symm.trans named
    obtain ⟨inner, isInner, rfl⟩ := descend_emptyWhenNull readable (by exact trivial) descended
    obtain ⟨body, isBody, selects, -⟩ := selects.descend refined.constructFree isInner
    have isShaped := keeps _ _ _ _ (Expr.readable_parameter _) isShaped isBody
    exact .items ty emptyType holds many refined isShaped selects typed
  | record holds single isShaped =>
    cases holds.named.symm.trans named
    obtain ⟨inner, isInner, rfl⟩ := descend_emptyWhenNull readable (by exact trivial) descended
    exact .record holds single (keeps _ _ _ _ readable isShaped isInner)

end Fitted

theorem Shaped.construct (shaped : Shaped refiner parameters fuel tree asked modelType source depth expr) :
    ∃ bindings, expr = .construct (.named modelType) bindings := by
  cases fuel with
  | zero => exact shaped.elim
  | succ fuel =>
    obtain ⟨_, bindings, _, same, _⟩ := shaped
    exact ⟨bindings, same⟩

theorem Shaped.descend (leads : step.LeadsOn refiner.mapping.schema modelType element)
    (shaped : Shaped refiner parameters fuel tree asked modelType source depth expr)
    (descended : Refiner.descend change step rest expr = .ok refined) :
    ∃ less members bindings results, fuel = less + 1 ∧
      refiner.mapping.schema.members modelType = .ok members ∧
      expr = .construct (.named modelType) bindings ∧
      List.Forall₂ (Bound refiner parameters (Shaped refiner parameters less) tree asked modelType
        source depth) members bindings ∧
      followBindings change step rest bindings = .ok results ∧
      refined = .construct (.named modelType) results := by
  cases fuel with
  | zero => exact shaped.elim
  | succ less =>
    obtain ⟨members, bindings, listed, rfl, bound⟩ := shaped
    have isParent : (DataType.named modelType).typeName? = some step.parentType :=
      congrArg some leads.declared.symm
    obtain ⟨results, follows, rfl⟩ := (descend_record isParent).1 descended
    exact ⟨less, members, bindings, results, rfl, listed, rfl, bound, follows, rfl⟩

theorem Bound.place_other {shaped : IncludeTree → Refinements → String → Expr → Nat → Expr → Prop}
    {binding : String × Expr} {name : String} {names : List String} {new : ExpandOptions}
    (bound : Bound refiner parameters shaped tree asked modelType source depth member binding)
    (different : member.name ≠ name) :
    Bound refiner parameters shaped tree (asked.place (name :: names) new) modelType source depth member
      binding := by
  cases bound with
  | omitted included => exact .omitted included
  | parameter included origin supplied => exact .parameter included origin supplied
  | read included path reads fitted =>
    refine .read included path reads ?_
    rwa [Refinements.below_place_other different, Refinements.place_other different]

theorem followBindings_bound {shaped : IncludeTree → Refinements → String → Expr → Nat → Expr → Prop}
    {members : List MemberDecl} {bindings results : List (String × Expr)} {child : IncludeTree}
    {names : List String} {new : ExpandOptions}
    (leads : step.LeadsOn refiner.mapping.schema modelType element)
    (listed : refiner.mapping.schema.members modelType = .ok members)
    (found : tree.child? step.memberName = some child) (readable : source.Readable)
    (bound : List.Forall₂ (Bound refiner parameters shaped tree asked modelType source depth) members
      bindings)
    (keeps : ∀ value ty changed, refiner.mapping.mapPath? modelType step.memberName = none →
      followed change step rest (.constant value ty) = .ok changed → changed = .constant value ty)
    (changes : ∀ read value changed, read.Readable →
      Fitted refiner (shaped child (asked.below step.memberName)) (asked step.memberName [])
        step.memberType read depth value →
      followed change step rest value = .ok changed →
      Fitted refiner (shaped child ((asked.place (step.memberName :: names) new).below step.memberName))
        (asked.place (step.memberName :: names) new step.memberName []) step.memberType read depth
        changed)
    (follows : followBindings change step rest bindings = .ok results) :
    List.Forall₂ (Bound refiner parameters shaped tree (asked.place (step.memberName :: names) new)
      modelType source depth) members results := by
  obtain ⟨all, isAll, isListed⟩ := leads.listed
  cases isAll.symm.trans listed
  have unique := Schema.members_unique listed
  have included : refiner.mapping.includeFor tree ⟨step.memberName, step.memberType⟩ =
      .ok (some child) := Mapping.includeFor_of_child found
  apply followBindings_related bound _ _ follows
  · intro member isMember name value bound apart
    have named : name = member.name := by
      cases bound <;> rfl
    refine bound.place_other fun equal => ?_
    -- The binding of the member of the step is included and has its type, so the step leads to it.
    have same : Text.sameName member.name step.memberName = true := by
      rw [equal]
      exact Text.sameName_refl _
    have isStep := unique.eq_of_sameName isMember isListed same
    subst isStep
    have typed : value.type.listEquivalent step.memberType = true := by
      cases bound with
      | omitted omitted => simp [included] at omitted
      | parameter _ _ _ => exact DataType.listEquivalent_refl _
      | read _ _ _ fitted => exact fitted.typed leads.named
    simp [leadsTo, named, Text.sameName_refl, typed] at apart
  · intro member isMember name value changed bound leadsHere isChanged
    have named : name = member.name := by
      cases bound <;> rfl
    have same : Text.sameName member.name step.memberName = true := by
      simp only [leadsTo, Bool.and_eq_true] at leadsHere
      exact named ▸ leadsHere.1
    have isStep := unique.eq_of_sameName isMember isListed same
    subst isStep
    cases bound with
    | omitted omitted => simp [included] at omitted
    | parameter included' origin supplied =>
      have unmapped : refiner.mapping.mapPath? modelType step.memberName = none := by
        simp only [Mapping.mapPath?, origin]
      rw [keeps _ _ changed unmapped isChanged]
      exact .parameter included' origin supplied
    | read included' path reads fitted =>
      cases included.symm.trans included'
      have isReadable := Expr.stable_readable.readMapped readable reads
      exact .read included path reads (changes _ value changed isReadable fitted isChanged)

theorem descend_shaped (rest : ExpansionSteps) {step : ExpansionStep} {fuel depth : Nat}
    {tree : IncludeTree} {asked : Refinements} {modelType : String} {source expr refined : Expr}
    {new : ExpandOptions} (passes : ExpansionSteps.Passes refiner.mapping modelType (step :: rest))
    (covers : tree.Covers (ExpansionSteps.names (step :: rest)))
    (accepts : (asked step.memberName (ExpansionSteps.names rest)).Accepts kind)
    (isNew : ∀ last ∈ (step :: rest).getLast?,
      new = (asked step.memberName (ExpansionSteps.names rest)).withStep kind last)
    (readable : source.Readable)
    (shaped : Shaped refiner parameters fuel tree asked modelType source depth expr)
    (descended : descend (refiner.changeMember kind) step rest expr = .ok refined) :
    Shaped refiner parameters fuel tree (asked.place (ExpansionSteps.names (step :: rest)) new)
      modelType source depth refined := by
  induction rest generalizing step fuel tree asked modelType source depth expr refined with
  | nil =>
    cases passes with
    | last leads mapped =>
      obtain ⟨child, found, -⟩ := covers
      obtain ⟨fuel, members, bindings, results, rfl, listed, rfl, bound, follows, rfl⟩ :=
        shaped.descend leads descended
      refine ⟨members, results, listed, rfl, ?_⟩
      apply followBindings_bound leads listed found readable bound _ _ follows
      · intro value ty changed unmapped _
        simp [unmapped] at mapped
      · intro read value changed _ fitted made
        rw [List.map_nil, Refinements.below_place_last, Refinements.place_here, isNew step rfl]
        exact fitted.changeMember (fun _ _ _ _ shaped => shaped.construct) accepts made
  | cons next later ih =>
    cases passes with
    | cons leads passesLater =>
      obtain ⟨child, found, coversLater⟩ := covers
      obtain ⟨fuel, members, bindings, results, rfl, listed, rfl, bound, follows, rfl⟩ :=
        shaped.descend leads descended
      refine ⟨members, results, listed, rfl, ?_⟩
      apply followBindings_bound leads listed found readable bound _ _ follows
      · intro value ty changed _ made
        -- Nothing is constructed in a parameter of the projection.
        exact (Except.ok.inj made).symm
      · intro read value changed isReadable fitted made
        rw [List.map_cons, Refinements.below_place_later, Refinements.place_later]
        apply fitted.descend isReadable leads.named _ made
        intro source depth expr refined readable shaped descended
        have isNewLater : ∀ last ∈ (next :: later).getLast?, new =
            (asked.below step.memberName next.memberName (ExpansionSteps.names later)).withStep kind
              last := by
          intro last isLast
          exact isNew last (by rwa [List.getLast?_cons_cons])
        exact ih passesLater coversLater accepts isNewLater readable shaped descended

end Refiner

end QueryProjection
