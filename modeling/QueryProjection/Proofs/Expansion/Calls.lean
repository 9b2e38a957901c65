import QueryProjection.Proofs.Expansion.Items
import QueryProjection.Proofs.Mapping.Calls

set_option autoImplicit false

namespace QueryProjection

open Outcome Evaluation

def ExpansionStep.calls (kind : RefinementKind) (step : ExpansionStep) : List SequenceMethod :=
  match kind with
  | .filter => [.filter]
  | .arrangement => (step.arrangement.map Arrangement.calls).getD []

def ExpansionSteps.calls (kind : RefinementKind) (steps : ExpansionSteps) : List SequenceMethod :=
  (steps.getLast?.map (ExpansionStep.calls kind)).getD []

def Expr.AddsCalls (calls : List SequenceMethod) (expr refined : Expr) : Prop :=
  ∀ method, refined.callsTo method = expr.callsTo method + calls.count method

namespace Expr.AddsCalls

variable {calls calls' : List SequenceMethod} {expr refined further : Expr}

theorem refl (expr : Expr) : AddsCalls [] expr expr := by
  simp [AddsCalls]

theorem trans (first : AddsCalls calls expr refined) (second : AddsCalls calls' refined further) :
    AddsCalls (calls ++ calls') expr further := by
  intro method
  rw [second method, first method, List.count_append, Nat.add_assoc]

theorem conditional {test whenNull : Expr} {ty : DataType} (adds : AddsCalls calls expr refined) :
    AddsCalls calls (.conditional test whenNull expr ty) (.conditional test whenNull refined ty) := by
  intro method
  simp [adds method, Nat.add_assoc]

theorem receiver {method : SequenceMethod} {rest : List Expr} {ty ty' : DataType}
    (adds : AddsCalls calls expr refined) :
    AddsCalls calls (.call method (expr :: rest) ty) (.call method (refined :: rest) ty') := by
  intro other
  simp only [Expr.callsTo_call, List.map_cons, List.sum_cons, adds other]
  omega

end Expr.AddsCalls

namespace Selects

variable {sequence body selection changed : Expr} {item : Parameter} {calls : List SequenceMethod}

theorem descend_adds {change : ExpansionStep → Expr → Outcome Expr} {step : ExpansionStep}
    {rest : ExpansionSteps} (selects : Selects sequence item body selection)
    (free : sequence.ConstructFree)
    (descended : Refiner.descend change step rest selection = .ok changed)
    (adds : ∀ body', Refiner.descend change step rest body = .ok body' →
      Expr.AddsCalls calls body body') :
    Expr.AddsCalls calls selection changed := by
  intro method
  obtain ⟨body', inner, -, calls⟩ := selects.descend free descended
  have added := adds body' inner method
  have same := calls method
  omega

end Selects

namespace Refiner

variable {refiner : Refiner} {parameters : ProjectionParameters} {fuel depth : Nat}
  {tree : IncludeTree} {asked : Refinements} {modelType element : String} {source read expr : Expr}
  {value changed refined sequence : Expr} {member : MemberDecl} {options : ExpandOptions}
  {kind : RefinementKind} {step next : ExpansionStep} {rest later : ExpansionSteps}
  {calls : List SequenceMethod}

def startOf (sequence : Expr) : RefinementSite → RefinementKind → Expr
  | .belowSelection, _ => sequence
  | _, .filter => sequence
  | _, .arrangement => .apply .asQueryable [sequence]

theorem Asks.adds {change : SequenceChange} {site : RefinementSite}
    (asks : refiner.Asks step element kind change) (made : change site sequence = .ok changed) :
    Expr.AddsCalls (step.calls kind) (startOf sequence site kind) changed := by
  cases asks with
  | filter _ bound =>
    obtain ⟨used, rfl, isUsed⟩ := filterChange_eq_ok made
    have free : used.body.CallFree := by
      have freePredicate := (Filter.bind_eq_ok bound).2.callFree
      split at isUsed
      next => exact isUsed ▸ freePredicate
      next => exact Mapping.lambdaToSource_callFree freePredicate isUsed
    have start : startOf sequence site .filter = sequence := by cases site <;> rfl
    intro method
    simp [Expr.filteredBy, Expr.apply, Expr.ofLambda, free method, start, ExpansionStep.calls]
  | @arrangement arrangement _ present bound =>
    obtain ⟨levels, areLevels, keys, -, rfl⟩ := transformOf_eq_ok bound
    obtain ⟨used, -, areUsed, arranges⟩ := arrangementChange_eq_ok keys made
    obtain ⟨free, same⟩ : (∀ level ∈ used, level.key.body.CallFree) ∧
        used.map OrderLevel.direction = arrangement.order.map OrderKey.direction := by
      split at areUsed
      next => exact areUsed ▸ Binder.levels_callFree areLevels
      next => exact Mapping.levelsToSource_callFree areLevels areUsed
    have added : step.calls .arrangement = arrangement.calls := by
      simp [ExpansionStep.calls, present]
    have start : startOf sequence site .arrangement =
        if site = .belowSelection then sequence else .apply .asQueryable [sequence] := by
      cases site <;> rfl
    intro method
    rw [added, start]
    exact arranges.callsTo method free same

theorem LandsBelow.adds {change : Expr → Outcome Expr} (lands : LandsBelow change value changed)
    (each : ∀ sequence inner, change sequence = .ok inner → Expr.AddsCalls calls sequence inner) :
    Expr.AddsCalls calls value changed := by
  induction lands with
  | here _ made => exact (each _ _ made).receiver
  | around _ _ ih => exact ih.receiver

section Fitted

variable {shaped : String → Expr → Nat → Expr → Prop}

theorem Fitted.changeMember_adds
    (fitted : Fitted refiner shaped options step.memberType read depth value)
    (records : ∀ element source depth expr, shaped element source depth expr →
      ∃ bindings, expr = .construct (.named element) bindings)
    (made : refiner.changeMember kind step value = .ok changed) :
    Expr.AddsCalls (step.calls kind) value changed := by
  obtain ⟨element, change, named, asks, lands⟩ := lands_of_changeMember made
  cases fitted with
  | same kind _ => exact absurd kind (Schema.targetKind_ne_primitive named)
  | converted kind _ => exact absurd kind (Schema.targetKind_ne_primitive named)
  | items ty emptyType holds many refined isShaped selects typed =>
    obtain ⟨inner, landsOn, rfl⟩ := Lands.guarded_iff.1 lands
    have below := landsOn.landsBelow selects.hasSelection
    exact (below.adds fun _ _ made => asks.adds made).conditional
  | record holds single isShaped =>
    obtain ⟨bindings, rfl⟩ := records _ _ _ _ isShaped
    obtain ⟨inner, landsOn, -⟩ := Lands.guarded_iff.1 lands
    exact absurd landsOn (not_landsOn_construct _ _)

theorem Fitted.descend_adds {memberType : DataType} {change : ExpansionStep → Expr → Outcome Expr}
    (fitted : Fitted refiner shaped options memberType read depth value)
    (readable : read.Readable) (named : memberType.typeName? = some element)
    (adds : ∀ source depth expr refined, source.Readable → shaped element source depth expr →
      Refiner.descend change next later expr = .ok refined → Expr.AddsCalls calls expr refined)
    (descended : Refiner.descend change next later value = .ok changed) :
    Expr.AddsCalls calls value changed := by
  cases fitted with
  | same kind _ => exact absurd kind (Schema.targetKind_ne_primitive named)
  | converted kind _ => exact absurd kind (Schema.targetKind_ne_primitive named)
  | items ty emptyType holds many refined isShaped selects typed =>
    cases holds.named.symm.trans named
    obtain ⟨inner, isInner, rfl⟩ := descend_emptyWhenNull readable (by exact trivial) descended
    exact (selects.descend_adds refined.constructFree isInner fun _ isBody =>
      adds _ _ _ _ (Expr.readable_parameter _) isShaped isBody).conditional
  | record holds single isShaped =>
    cases holds.named.symm.trans named
    obtain ⟨inner, isInner, rfl⟩ := descend_emptyWhenNull readable (by exact trivial) descended
    exact (adds _ _ _ _ readable isShaped isInner).conditional

end Fitted

theorem followBindings_same {change : ExpansionStep → Expr → Outcome Expr}
    {bindings results : List (String × Expr)}
    (apart : ∀ binding ∈ bindings, leadsTo step binding.1 binding.2 = false)
    (follows : followBindings change step rest bindings = .ok results) : results = bindings := by
  induction bindings generalizing results with
  | nil =>
    simp only [followBindings, Except.ok.injEq] at follows
    exact follows.symm
  | cons binding bindings ih =>
    obtain ⟨name, value⟩ := binding
    obtain ⟨apartHere, apartLater⟩ := List.forall_mem_cons.1 apart
    simp only [followBindings_cons, apartHere, Bool.false_eq_true, if_false, ok_bind, bind_eq_ok,
      pure_eq_ok] at follows
    obtain ⟨others, areOthers, rfl⟩ := follows
    rw [ih apartLater areOthers]

theorem followBindings_adds {change : ExpansionStep → Expr → Outcome Expr}
    {relation : MemberDecl → String × Expr → Prop} {members : List MemberDecl}
    {bindings results : List (String × Expr)} (ty : DataType) (unique : Schema.Unique members)
    (isListed : member ∈ members)
    (named : ∀ member binding, relation member binding → binding.1 = member.name)
    (related : List.Forall₂ relation members bindings)
    (sameName : Text.sameName member.name step.memberName = true)
    (changes : ∀ value, relation member (member.name, value) →
      leadsTo step member.name value = true ∧ ∀ changed, followed change step rest value = .ok changed →
        Expr.AddsCalls calls value changed)
    (follows : followBindings change step rest bindings = .ok results) :
    Expr.AddsCalls calls (.construct ty bindings) (.construct ty results) := by
  intro method
  induction related generalizing results with
  | nil => simp at isListed
  | @cons first binding members bindings bound later ih =>
    obtain ⟨name, value⟩ := binding
    obtain rfl : name = first.name := named _ _ bound
    obtain ⟨new, uniqueLater⟩ := List.nodup_cons.1 unique
    simp only [followBindings_cons, bind_eq_ok, pure_eq_ok] at follows
    obtain ⟨result, isResult, others, areOthers, rfl⟩ := follows
    have apart {other : MemberDecl} (isOther : other ∈ members) :
        Text.foldCase other.name ≠ Text.foldCase first.name :=
      fun same => new (List.mem_map.2 ⟨other, isOther, same⟩)
    rcases List.mem_cons.1 isListed with rfl | isLater
    · obtain ⟨leads, adds⟩ := changes value bound
      rw [if_pos leads] at isResult
      -- The later bindings have other names, so the step leads to none of them.
      have unchanged : others = bindings := by
        refine followBindings_same (fun other isOther => ?_) areOthers
        obtain ⟨declared, isDeclared, boundOther⟩ := exists_of_forall₂ later.flip isOther
        rw [Text.sameName_iff] at sameName
        simp only [leadsTo, Bool.and_eq_false_iff, named _ _ boundOther]
        left
        rw [Bool.eq_false_iff, ne_eq, Text.sameName_iff, ← sameName]
        exact apart isDeclared
      subst unchanged
      simp [adds result isResult method]
      omega
    · have elsewhere : leadsTo step first.name value = false := by
        rw [Text.sameName_iff] at sameName
        simp only [leadsTo, Bool.and_eq_false_iff]
        left
        rw [Bool.eq_false_iff, ne_eq, Text.sameName_iff, ← sameName]
        exact (apart isLater).symm
      rw [elsewhere] at isResult
      simp only [Bool.false_eq_true, if_false, Except.ok.injEq] at isResult
      subst isResult
      have adds := ih uniqueLater isLater areOthers
      simp only [Expr.callsTo_construct, List.map_cons, List.sum_cons] at adds ⊢
      omega

theorem Bound.of_step {shaped : IncludeTree → Refinements → String → Expr → Nat → Expr → Prop}
    {child : IncludeTree} (leads : step.LeadsOn refiner.mapping.schema modelType element)
    (found : tree.child? step.memberName = some child)
    (mapped : (refiner.mapping.mapPath? modelType step.memberName).isSome = true)
    (readable : source.Readable)
    (bound : Bound refiner parameters shaped tree asked modelType source depth
      ⟨step.memberName, step.memberType⟩ (step.memberName, value)) :
    leadsTo step step.memberName value = true ∧ ∃ read, read.Readable ∧
      Fitted refiner (shaped child (asked.below step.memberName)) (asked step.memberName [])
        step.memberType read depth value := by
  have included : refiner.mapping.includeFor tree ⟨step.memberName, step.memberType⟩ =
      .ok (some child) := Mapping.includeFor_of_child found
  cases bound with
  | omitted omitted => simp [included] at omitted
  | parameter _ origin _ => simp [Mapping.mapPath?, origin] at mapped
  | read included' path reads fitted =>
    cases included.symm.trans included'
    refine ⟨?_, _, Expr.stable_readable.readMapped readable reads, fitted⟩
    simp [leadsTo, Text.sameName_refl, fitted.typed leads.named]

theorem descend_adds (rest : ExpansionSteps) {step : ExpansionStep} {fuel depth : Nat}
    {tree : IncludeTree} {asked : Refinements} {modelType : String} {source expr refined : Expr}
    (passes : ExpansionSteps.Passes refiner.mapping modelType (step :: rest))
    (covers : tree.Covers (ExpansionSteps.names (step :: rest)))
    (mapped : ∀ other ∈ step :: rest,
      (refiner.mapping.mapPath? other.parentType other.memberName).isSome = true)
    (readable : source.Readable)
    (shaped : Shaped refiner parameters fuel tree asked modelType source depth expr)
    (descended : descend (refiner.changeMember kind) step rest expr = .ok refined) :
    Expr.AddsCalls (ExpansionSteps.calls kind (step :: rest)) expr refined := by
  induction rest generalizing step fuel tree asked modelType source depth expr refined with
  | nil =>
    cases passes with
    | last leads mappedHere =>
      obtain ⟨child, found, -⟩ := covers
      obtain ⟨fuel, members, bindings, results, rfl, listed, rfl, bound, follows, rfl⟩ :=
        shaped.descend leads descended
      obtain ⟨all, isAll, isListed⟩ := leads.listed
      cases isAll.symm.trans listed
      refine followBindings_adds _ (Schema.members_unique listed) isListed
        (fun _ _ bound => by cases bound <;> rfl) bound (Text.sameName_refl _) ?_ follows
      intro value bound
      obtain ⟨leadsHere, read, isReadable, fitted⟩ :=
        bound.of_step leads found mappedHere readable
      exact ⟨leadsHere, fun _ made => fitted.changeMember_adds
        (fun _ _ _ _ shaped => shaped.construct) made⟩
  | cons next later ih =>
    cases passes with
    | cons leads passesLater =>
      obtain ⟨child, found, coversLater⟩ := covers
      obtain ⟨fuel, members, bindings, results, rfl, listed, rfl, bound, follows, rfl⟩ :=
        shaped.descend leads descended
      obtain ⟨all, isAll, isListed⟩ := leads.listed
      cases isAll.symm.trans listed
      obtain ⟨mappedHere, mappedLater⟩ := List.forall_mem_cons.1 mapped
      rw [leads.declared] at mappedHere
      -- Only the last step has calls to add.
      have sameCalls : ExpansionSteps.calls kind (step :: next :: later) =
          ExpansionSteps.calls kind (next :: later) := by
        simp [ExpansionSteps.calls, List.getLast?_cons_cons]
      rw [sameCalls]
      refine followBindings_adds _ (Schema.members_unique listed) isListed
        (fun _ _ bound => by cases bound <;> rfl) bound (Text.sameName_refl _) ?_ follows
      intro value bound
      obtain ⟨leadsHere, read, isReadable, fitted⟩ :=
        bound.of_step leads found mappedHere readable
      refine ⟨leadsHere, fun _ made => fitted.descend_adds isReadable leads.named ?_ made⟩
      intro source depth expr refined readable shaped descended
      exact ih passesLater coversLater mappedLater readable shaped descended

theorem applyAll_adds {lists : List ExpansionSteps}
    (passes : ∀ steps ∈ lists, ExpansionSteps.Passes refiner.mapping modelType steps)
    (covers : ∀ steps ∈ lists, tree.Covers (ExpansionSteps.names steps))
    (distinct : lists.Pairwise fun steps other =>
      ExpansionSteps.names steps ≠ ExpansionSteps.names other)
    (accepts : ∀ steps ∈ lists, ∀ name rest, ExpansionSteps.names steps = name :: rest →
      (asked name rest).Accepts kind)
    (mapped : ∀ steps ∈ lists, ∀ step ∈ steps,
      (refiner.mapping.mapPath? step.parentType step.memberName).isSome = true)
    (readable : source.Readable)
    (shaped : Shaped refiner parameters fuel tree asked modelType source depth expr)
    (applied : refiner.applyAll kind expr lists = .ok refined) :
    Expr.AddsCalls (lists.flatMap (ExpansionSteps.calls kind)) expr refined := by
  induction lists generalizing asked expr with
  | nil =>
    simp only [applyAll, List.foldlM_nil, pure_eq_ok] at applied
    exact applied ▸ .refl expr
  | cons steps lists ih =>
    obtain ⟨first, isFirst, applied⟩ : ∃ first, refiner.applyOne kind expr steps = .ok first ∧
        refiner.applyAll kind first lists = .ok refined := by
      simpa only [applyAll, List.foldlM_cons, bind_eq_ok] using applied
    obtain ⟨passesSteps, passesRest⟩ := List.forall_mem_cons.1 passes
    obtain ⟨coversSteps, coversRest⟩ := List.forall_mem_cons.1 covers
    obtain ⟨apart, distinctRest⟩ := List.pairwise_cons.1 distinct
    obtain ⟨acceptsSteps, acceptsRest⟩ := List.forall_mem_cons.1 accepts
    obtain ⟨mappedSteps, mappedRest⟩ := List.forall_mem_cons.1 mapped
    -- The first list alone keeps the shape, and leaves room for the options of the others.
    have alone : refiner.applyAll kind expr [steps] = .ok first := by
      simpa only [applyAll, List.foldlM_cons, List.foldlM_nil, bind_pure] using isFirst
    obtain ⟨asked', shapedFirst, -, elsewhere⟩ := applyAll_shaped (by simpa using passesSteps)
      (by simpa using coversSteps) (List.pairwise_singleton _ _) (by simpa using acceptsSteps)
      readable shaped alone
    have acceptsLater : ∀ other ∈ lists, ∀ name rest, ExpansionSteps.names other = name :: rest →
        (asked' name rest).Accepts kind := by
      intro other isOther name rest named
      rw [elsewhere name rest (by simpa using named ▸ apart other isOther)]
      exact acceptsRest other isOther name rest named
    have later := ih passesRest coversRest distinctRest acceptsLater mappedRest shapedFirst applied
    obtain ⟨step, rest, rfl, descended⟩ := applyOne_eq_ok isFirst
    exact (descend_adds rest passesSteps coversSteps mappedSteps readable shaped descended).trans later

end Refiner

end QueryProjection
