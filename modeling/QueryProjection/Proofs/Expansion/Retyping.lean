import QueryProjection.Proofs.Expansion.Frame
import QueryProjection.Proofs.Expansion.Landing
import QueryProjection.Proofs.Expansion.Records

set_option autoImplicit false

namespace QueryProjection

open Outcome

namespace DataType

def KeepsKind (old new : DataType) : Prop :=
  ∀ kind ∈ [CollectionKind.list, .array], old.collectionKind? = some kind →
    new.collectionKind? = some kind

inductive SameElements : DataType → DataType → Prop where
  | intro {kind kind' : CollectionKind} (element : DataType)
      (kept : kind ∈ [CollectionKind.list, .array] → kind' = kind) :
      SameElements (.collection kind element) (.collection kind' element)

namespace SameElements

variable {old new : DataType}

theorem elementType (same : SameElements old new) : old.elementType = new.elementType := by
  cases same
  rfl

theorem keepsKind (same : SameElements old new) : KeepsKind old new := by
  cases same with
  | intro element kept =>
    intro kind isKept held
    cases held
    exact congrArg some (kept isKept)

theorem listEquivalent (same : SameElements old new) : old.listEquivalent new = true := by
  cases same
  simp [DataType.listEquivalent, nonNull]

end SameElements

theorem elementType_of_typeName {ty : DataType} {element : String}
    (named : ty.typeName? = some element) : ty.elementType = .named element := by
  unfold typeName? at named
  split at named
  next isNamed => simpa [isNamed] using named
  next => simp at named

theorem listEquivalent_iff_of_isCollection {old new : DataType} (many : old.isCollection = true)
    (manyNew : new.isCollection = true) :
    old.listEquivalent new = true ↔ old.elementType.nonNull = new.elementType.nonNull := by
  unfold isCollection at many manyNew
  split at many
  next isOld =>
    split at manyNew
    next isNew => simp [listEquivalent, elementType, isOld, isNew]
    next => simp at manyNew
  next => simp at many

theorem isCollection_of_listEquivalent {old new : DataType} (same : old.listEquivalent new = true)
    (many : old.isCollection = true) : new.isCollection = true := by
  unfold isCollection at many
  split at many
  next isOld =>
    unfold listEquivalent at same
    rw [isOld] at same
    split at same
    next isNew => simp [isCollection, isNew]
    next =>
      rw [isCollection, ← eq_of_beq same]
  next => simp at many

end DataType

open DataType

namespace Expr

def DerivesCalls (expr : Expr) : Prop :=
  ∀ method arguments ty, .call method arguments ty ∈ expr.subterms → ty = callType method arguments

theorem DerivesCalls.of_subset {expr node : Expr} (derives : DerivesCalls expr)
    (isWithin : node.subterms ⊆ expr.subterms) : DerivesCalls node :=
  fun method arguments ty isCall => derives method arguments ty (isWithin isCall)

def isConditional : Expr → Bool
  | .conditional _ _ _ _ => true
  | _ => false

variable {expr receiver receiver' : Expr} {rest : List Expr} {method : SequenceMethod}
  {item element : DataType} {levels : List OrderLevel} {number : Option Nat}

theorem callType_sameElements
    (same : method = .select ∨ receiver.type.elementType = receiver'.type.elementType) :
    SameElements (callType method (receiver :: rest)) (callType method (receiver' :: rest)) := by
  have notKept : ∀ {kind : CollectionKind} {test : Prop} [Decidable test],
      (if test then CollectionKind.queryable else .enumerable) ∈ [CollectionKind.list, .array] →
        kind = if test then CollectionKind.queryable else .enumerable := by
    intro kind test _ isKept
    split at isKept <;> simp at isKept
  rcases same with rfl | same
  · exact .intro _ notKept
  · simp only [callType, List.head?_cons, Option.map_some, Option.getD_some, same]
    cases method with
    | toList | toArray | asQueryable => exact .intro _ fun _ => rfl
    | _ => exact .intro _ notKept

theorem coercedTo_type {kind' : CollectionKind} (typed : expr.type = .collection kind' element)
    (kind : CollectionKind) :
    ∃ kind'', (expr.coercedTo (some kind)).type = .collection kind'' element ∧
      (kind ∈ [CollectionKind.list, .array] → kind'' = kind) := by
  cases kind with
  | list | array | queryable =>
    refine ⟨_, ?_, fun _ => rfl⟩
    simp [coercedTo, apply, type, callType, typed, elementType, nonNull]
  | enumerable => exact ⟨kind', typed, by simp⟩

def IsCall (item : DataType) (expr : Expr) : Prop :=
  ∃ method arguments, expr = .call method arguments (.collection .queryable item)

theorem IsCall.type_eq (isCall : IsCall item expr) : expr.type = .collection .queryable item := by
  obtain ⟨method, arguments, rfl⟩ := isCall
  rfl

theorem IsCall.applyTo_type {param : Parameter} (isCall : IsCall item expr) (argument : Expr) :
    (Lambda.applyTo ⟨param, expr⟩ argument).type = .collection .queryable item := by
  obtain ⟨method, arguments, rfl⟩ := isCall
  rfl

theorem apply_isCall (keeps : method ∉ [SequenceMethod.select, .toList, .toArray])
    (typed : expr.type = .collection .queryable item) :
    IsCall item (.apply method (expr :: rest)) := by
  refine ⟨method, expr :: rest, ?_⟩
  rw [apply]
  cases method <;>
    simp [callType, typed, elementType, collectionKind?, nonNull] at keeps ⊢

theorem orderCalls_isCall (isFirst : Bool) (typed : expr.type = .collection .queryable item) :
    (orderCalls isFirst expr levels).type = .collection .queryable item ∧
      (IsCall item expr ∨ levels ≠ [] → IsCall item (orderCalls isFirst expr levels)) := by
  induction levels generalizing isFirst expr with
  | nil => exact ⟨typed, by simp [orderCalls]⟩
  | cons level rest ih =>
    have keeps : Arrangement.orderMethod isFirst level.direction ∉
        [SequenceMethod.select, .toList, .toArray] := by
      cases isFirst <;> cases level.direction <;> simp [Arrangement.orderMethod]
    have outer : IsCall item (.apply (Arrangement.orderMethod isFirst level.direction)
      [expr, .ofLambda level.key]) := apply_isCall keeps typed
    obtain ⟨typedLater, isCall⟩ := ih false outer.type_eq
    exact ⟨typedLater, fun _ => isCall (.inl outer)⟩

theorem limitCall_isCall (limits : method = .skip ∨ method = .take)
    (typed : expr.type = .collection .queryable item) :
    (limitCall method expr number).type = .collection .queryable item ∧
      (IsCall item expr ∨ number ≠ none → IsCall item (limitCall method expr number)) := by
  cases number with
  | none => exact ⟨typed, by simp [limitCall]⟩
  | some number =>
    have keeps : method ∉ [SequenceMethod.select, .toList, .toArray] := by
      rcases limits with rfl | rfl <;> decide
    have outer : IsCall item (limitCall method expr (some number)) := apply_isCall keeps typed
    exact ⟨outer.type_eq, fun _ => outer⟩

theorem arrangeCalls_isCall {arrangement : Arrangement} (asks : arrangement.isEmpty = false)
    (same : levels.map OrderLevel.direction = arrangement.order.map OrderKey.direction)
    (typed : expr.type = .collection .queryable item) :
    IsCall item (arrangeCalls levels arrangement.skip arrangement.top expr) := by
  obtain ⟨typedOrder, ordered⟩ := orderCalls_isCall true typed
  obtain ⟨typedSkip, skipped⟩ := limitCall_isCall (.inl rfl) typedOrder
  refine (limitCall_isCall (.inr rfl) typedSkip).2 ?_
  -- The last part that is asked for is the outermost call.
  by_cases limited : arrangement.top = none
  · by_cases skips : arrangement.skip = none
    · have orders : arrangement.order ≠ [] := by
        simpa [Arrangement.isEmpty, limited, skips] using asks
      have levelled : levels ≠ [] := by
        rintro rfl
        exact orders (by simpa using same.symm)
      exact .inl (skipped (.inl (ordered (.inr levelled))))
    · exact .inl (skipped (.inr skips))
  · exact .inr limited

end Expr

namespace Refiner

variable {refiner : Refiner} {kind : RefinementKind} {step : ExpansionStep} {name element : String}
  {change : SequenceChange} {site : RefinementSite} {sequence value changed : Expr}
  {arrangement : Arrangement} {transform : Lambda}

theorem LandsBelow.sameElements {change : Expr → Outcome Expr}
    (lands : LandsBelow change value changed) (derives : value.DerivesCalls) :
    SameElements value.type changed.type := by
  induction lands with
  | here _ _ =>
    -- The type of a selection follows from the selector alone.
    rw [Expr.type, derives _ _ _ (Expr.mem_subterms_self _)]
    exact Expr.callType_sameElements (.inl rfl)
  | @around method receiver _ rest ty _ _ ih =>
    have isChild : receiver ∈ (Expr.call method (receiver :: rest) ty).children := List.mem_cons_self
    have same := ih (.of_subset derives (Expr.subterms_subset_of_mem_children isChild))
    rw [Expr.type, derives _ _ _ (Expr.mem_subterms_self _)]
    exact Expr.callType_sameElements (.inr same.elementType)

theorem arrangementChange_type (asks : arrangement.isEmpty = false)
    (bound : refiner.transformOf element arrangement = .ok transform)
    (made : refiner.arrangementChange transform site sequence = .ok changed) :
    changed.type = .collection .queryable
      (if site = .model then .named element
        else refiner.mapping.typeToSource (.named element)) := by
  obtain ⟨levels, areLevels, -, -, rfl⟩ := transformOf_eq_ok bound
  have same := (Binder.levels_callFree areLevels).2
  cases site with
  | model =>
    simp only [arrangementChange, Except.ok.injEq] at made
    subst made
    exact (Expr.arrangeCalls_isCall asks same rfl).applyTo_type _
  | belowSelection | mapped =>
    simp only [arrangementChange, bind_eq_ok, pure_eq_ok, Mapping.lambdaToSource_arrangeCalls] at made
    obtain ⟨_, ⟨used, areUsed, rfl⟩, rfl⟩ := made
    have sameUsed := (Mapping.levelsToSource_callFree areLevels areUsed).2
    exact (Expr.arrangeCalls_isCall asks sameUsed rfl).applyTo_type _

def changedElement (refiner : Refiner) (element : String) (old : DataType) :
    RefinementKind → RefinementSite → DataType
  | .filter, _ => old
  | .arrangement, .model => .named element
  | .arrangement, _ => refiner.mapping.typeToSource (.named element)

theorem Asks.type (carries_ : carries kind step = true)
    (asks : refiner.Asks step element kind change) (made : change site sequence = .ok changed) :
    ∃ kind', changed.type = .collection kind'
      (refiner.changedElement element sequence.type.elementType kind site) := by
  cases asks with
  | filter _ _ =>
    obtain ⟨used, rfl, -⟩ := filterChange_eq_ok made
    exact ⟨_, rfl⟩
  | @arrangement arrangement _ present bound =>
    have asks : arrangement.isEmpty = false := by
      simpa [carries, ExpansionStep.hasArrangement, present] using carries_
    refine ⟨.queryable, ?_⟩
    rw [arrangementChange_type asks bound made]
    cases site <;> rfl

/-- An order, a skip or a limit lands on a bare collection whose elements may be null, and is
translated as if these were the source records of the model type. -/
structure ReadsAsSource (refiner : Refiner) (kind : RefinementKind) (step : ExpansionStep)
    (value : Expr) : Prop where
  arranges : kind = .arrangement
  unguarded : value.isConditional = false
  bare : hasSelection value = false
  nullable : value.type.elementType.isNullable = true
  mapped : refiner.mapping.typeToSource step.memberType.elementType ≠ step.memberType.elementType

theorem nonNull_changedElement_iff (named : step.memberType.typeName? = some element)
    (unguarded : value.isConditional = false) (bare : hasSelection value = false)
    (elements : value.type.elementType.nonNull = .named element) :
    (refiner.changedElement element value.type.elementType kind
        (if value.type.typeName? = some element then .model else .mapped)).nonNull =
      .named element ↔ ¬ refiner.ReadsAsSource kind step value := by
  have memberElement := elementType_of_typeName named
  cases kind with
  | filter => exact iff_of_true elements fun reads => nomatch reads.arranges
  | arrangement =>
    by_cases model : value.type.typeName? = some element
    · have notNull : value.type.elementType.isNullable = false := by
        rw [elementType_of_typeName model]
        rfl
      rw [if_pos model]
      exact iff_of_true rfl fun reads =>
        Bool.false_ne_true (notNull.symm.trans reads.nullable)
    · -- The elements are of the model type up to null, but not of it: they may be null.
      have nullable : value.type.elementType.isNullable = true := by
        unfold typeName? at model
        cases element_ : value.type.elementType with
        | nullable inner => rfl
        | named other => simp_all [nonNull]
        | scalar _ | collection _ _ | object => simp [element_, nonNull] at elements
      have sourceNamed : (refiner.mapping.typeToSource (.named element)).nonNull =
          refiner.mapping.typeToSource (.named element) := by
        unfold Mapping.typeToSource
        split <;> rfl
      have translated : refiner.changedElement element value.type.elementType .arrangement .mapped =
          refiner.mapping.typeToSource (.named element) := rfl
      rw [if_neg model, translated, sourceNamed]
      constructor
      · intro same reads
        exact reads.mapped (memberElement ▸ same)
      · intro notReads
        by_contra differs
        exact notReads ⟨rfl, unguarded, bare, nullable, memberElement ▸ differs⟩

theorem LandsOn.retypes (lands : LandsOn change element value changed)
    (carries_ : carries kind step = true) (named : step.memberType.typeName? = some element)
    (asks : refiner.Asks step element kind change) (leads : leadsTo step name value = true)
    (derives : value.DerivesCalls) (unguarded : value.isConditional = false) :
    KeepsKind value.type changed.type ∧
      (value.type.listEquivalent changed.type = true ↔ ¬ refiner.ReadsAsSource kind step value) := by
  cases lands with
  | below selects lands =>
    have same := lands.sameElements derives
    exact ⟨same.keepsKind, iff_of_true same.listEquivalent fun reads =>
      Bool.false_ne_true (reads.bare.symm.trans selects)⟩
  | bare bare many made =>
    have equivalent : value.type.listEquivalent step.memberType = true :=
      (Bool.and_eq_true_iff.1 leads).2
    have elements : value.type.elementType.nonNull = .named element := by
      rw [(listEquivalent_iff_of_isCollection many
        (isCollection_of_listEquivalent equivalent many)).1 equivalent,
        elementType_of_typeName named]
      rfl
    obtain ⟨kind', isKind⟩ : ∃ kind', value.type.collectionKind? = some kind' := by
      unfold isCollection at many
      split at many
      next isOld => exact ⟨_, by rw [collectionKind?, isOld]⟩
      next => simp at many
    obtain ⟨innerKind, typed⟩ := asks.type carries_ made
    obtain ⟨newKind, retyped, kept⟩ := Expr.coercedTo_type typed kind'
    rw [isKind, retyped]
    constructor
    · intro other isKept held
      obtain rfl : kind' = other := Option.some.inj (isKind.symm.trans held)
      rw [kept isKept]
      rfl
    · rw [listEquivalent_iff_of_isCollection many rfl, elements, eq_comm]
      exact nonNull_changedElement_iff named unguarded bare elements

theorem changeMember_retypes (carries_ : carries kind step = true)
    (leads : leadsTo step name value = true) (derives : value.DerivesCalls)
    (made : refiner.changeMember kind step value = .ok changed) :
    KeepsKind value.type changed.type ∧
      (value.type.listEquivalent changed.type = true ↔ ¬ refiner.ReadsAsSource kind step value) := by
  obtain ⟨element, change, named, asks, lands⟩ := lands_of_changeMember made
  cases lands with
  | @guarded _ _ _ _ ty _ =>
    exact ⟨fun _ _ held => held, iff_of_true (listEquivalent_refl ty) fun reads =>
      Bool.false_ne_true reads.unguarded.symm⟩
  | unguarded notGuarded lands =>
    have unguarded : value.isConditional = false := by
      unfold Expr.isConditional
      split
      next => exact absurd rfl (notGuarded _ _ _ _)
      next => rfl
    exact lands.retypes carries_ named asks leads derives unguarded

open ExpansionSteps

/-- The replacements that a list of steps makes in an expression: of all that it leads to, and of
nothing else. Each replaced value gains the calls of the last step, and keeps its type up to null and the
kind of collection unless its elements are taken for source records. -/
structure ReplacedBy (refiner : Refiner) (kind : RefinementKind) (steps : ExpansionSteps) (expr : Expr)
    (new : Position → Option Expr) : Prop where
  addressed : ∀ position, (new position).isSome = true ↔ ∃ value, LeadTo steps expr position value
  gains : ∀ position value changed, LeadTo steps expr position value → new position = some changed →
    Expr.GainsCalls (ExpansionSteps.calls kind steps) value changed
  keepsKind : ∀ position value changed, LeadTo steps expr position value →
    new position = some changed → KeepsKind value.type changed.type
  equivalent : ∀ position value changed, LeadTo steps expr position value →
    new position = some changed → ∀ last, steps.getLast? = some last →
      (value.type.listEquivalent changed.type = true ↔ ¬ refiner.ReadsAsSource kind last value)

section Accepted

variable {steps : ExpansionSteps} {expr : Expr} {new : Position → Option Expr} {last : ExpansionStep}
  {position : Position}

theorem Replaces.isChanged
    (replaces : Replaces (refiner.changeMember kind last) (LeadTo steps expr) new)
    (isLast : steps.getLast? = some last) (leads : LeadTo steps expr position value)
    (isNew : new position = some changed) :
    refiner.changeMember kind last value = .ok changed ∧ ∃ name, leadsTo last name value = true := by
  obtain ⟨made, isMade, isNew'⟩ := replaces.there leads
  obtain ⟨last', name, isLast', leadsLast⟩ := leads.leadsTo_last
  cases isNew.symm.trans isNew'
  cases isLast.symm.trans isLast'
  exact ⟨isMade, name, leadsLast⟩

theorem Replaces.replacedBy
    (replaces : Replaces (refiner.changeMember kind last) (LeadTo steps expr) new)
    (isLast : steps.getLast? = some last) (carries_ : carries kind last = true)
    (derives : expr.DerivesCalls) : refiner.ReplacedBy kind steps expr new := by
  have retypes : ∀ {position value changed}, LeadTo steps expr position value →
      new position = some changed → KeepsKind value.type changed.type ∧
        (value.type.listEquivalent changed.type = true ↔
          ¬ refiner.ReadsAsSource kind last value) := by
    intro position value changed leads isNew
    obtain ⟨isMade, name, leadsLast⟩ := replaces.isChanged isLast leads isNew
    exact changeMember_retypes carries_ leadsLast
      (Expr.DerivesCalls.of_subset derives leads.subterms_subset) isMade
  have lastCalls : ExpansionSteps.calls kind steps = last.calls kind := by
    rw [ExpansionSteps.calls, isLast, Option.map_some, Option.getD_some]
  exact {
    addressed := fun position => replaces.isSome_iff
    gains := fun position value changed leads isNew =>
      lastCalls ▸ changeMember_gains (replaces.isChanged isLast leads isNew).1
    keepsKind := fun position value changed leads isNew => (retypes leads isNew).1
    equivalent := fun position value changed leads isNew last' isLast' => by
      cases isLast.symm.trans isLast'
      exact (retypes leads isNew).2 }

/-- An accepted list of steps replaces what it leads to, in any expression, and leaves the rest as it
is; an expression in which it leads nowhere stays as it is. -/
theorem applyOne_replaces {refined : Expr}
    (accepted : refiner.applyOne kind expr steps = .ok refined) (derives : expr.DerivesCalls) :
    ∃ new, refined = expr.replaceAt new ∧ refiner.ReplacedBy kind steps expr new ∧
      ((∀ position value, ¬ LeadTo steps expr position value) → refined = expr) := by
  obtain ⟨last, isLast, carries_⟩ := carries_of_applyOne accepted
  obtain ⟨step, rest, rfl, descended⟩ := applyOne_eq_ok accepted
  obtain ⟨new, rfl, replaces⟩ := descend_replaces expr descended
  obtain rfl : rest.getLastD step = last := by simpa [List.getLast?_cons] using isLast
  refine ⟨new, rfl, replaces.replacedBy isLast carries_ derives, fun notLed => ?_⟩
  exact Expr.replaceAt_eq_self expr fun position => replaces.elsewhere (notLed position)

end Accepted

section PlayersRead

def playerRefiner : Refiner := ⟨playerMapping, ⟨true, none⟩⟩

def playersRead (element : DataType) : Expr :=
  .member (.parameter ⟨"x", .named "Team"⟩) "Players" (.collection .list element)

def copiedTeam (element : DataType) : Expr :=
  .construct (.named "Team")
    [("Name", .member (.parameter ⟨"x", .named "Team"⟩) "Name" (.scalar .string)),
      ("Players", playersRead element)]

def firstPlayer : ExpansionStep :=
  ⟨"Players", "Team", .collection .list (.named "Player"), none, some ⟨[], none, some 1⟩⟩

theorem copiedTeam_derivesCalls (element : DataType) : (copiedTeam element).DerivesCalls := by
  intro method arguments ty isCall
  simp [copiedTeam, playersRead, Expr.subterms, Expr.bindingSubterms] at isCall

theorem applyOne_replaces_firstPlayer :
    ∃ refined new,
      playerRefiner.applyOne .arrangement (copiedTeam (.named "Player")) [firstPlayer] = .ok refined ∧
      refined = (copiedTeam (.named "Player")).replaceAt new ∧ new [0] = none ∧
      playerRefiner.ReplacedBy .arrangement [firstPlayer] (copiedTeam (.named "Player")) new := by
  have accepted : playerRefiner.applyOne .arrangement (copiedTeam (.named "Player")) [firstPlayer] =
    .ok _ := rfl
  obtain ⟨new, isNew, replaced, -⟩ := applyOne_replaces accepted (copiedTeam_derivesCalls _)
  have elsewhere : new [0] = none := by
    rw [← Option.not_isSome_iff_eq_none, replaced.addressed]
    rintro ⟨value, leads⟩
    obtain ⟨index, inner, binding, same, isBinding, leads, -⟩ := (LeadTo.record_iff rfl).1 leads
    cases same
    cases isBinding
    exact absurd leads (by decide)
  exact ⟨_, new, accepted, isNew, elsewhere, replaced⟩

/-- Players that may be null are taken for source records, and then their type is that of persons. -/
theorem not_applyOne_replaces_nullable :
    ∃ changed,
      playerRefiner.applyOne .arrangement (copiedTeam (.nullable (.named "Player"))) [firstPlayer] =
        .ok ((copiedTeam (.nullable (.named "Player"))).replaceAt fun position =>
          if position = [1] then some changed else none) ∧
      (copiedTeam (.nullable (.named "Player"))).DerivesCalls ∧
      LeadTo [firstPlayer] (copiedTeam (.nullable (.named "Player"))) [1]
        (playersRead (.nullable (.named "Player"))) ∧
      changed.type = .collection .list (.named "Person") ∧
      (playersRead (.nullable (.named "Player"))).type.listEquivalent changed.type = false :=
  ⟨_, rfl, copiedTeam_derivesCalls _, .here rfl rfl (by decide), rfl, by decide⟩

end PlayersRead

end Refiner

end QueryProjection
