import QueryProjection.Expansion.Refinement
import QueryProjection.Proofs.Mapping.Source

set_option autoImplicit false

namespace QueryProjection.Refiner

open Outcome

variable {refiner : Refiner} {kind : RefinementKind} {step : ExpansionStep} {element : String}
  {value changed sequence : Expr}

inductive Asks (refiner : Refiner) (step : ExpansionStep) (element : String) :
    RefinementKind → SequenceChange → Prop where
  | filter {filter : ScopedFilter} {predicate : Lambda} (present : step.filter = some filter)
      (bound : filter.bind refiner.mapping.schema = .ok predicate) :
      Asks refiner step element .filter (refiner.filterChange predicate)
  | arrangement {arrangement : Arrangement} {transform : Lambda}
      (present : step.arrangement = some arrangement)
      (bound : refiner.transformOf element arrangement = .ok transform) :
      Asks refiner step element .arrangement (refiner.arrangementChange transform)

theorem asks_of_changeOf {change : SequenceChange}
    (made : refiner.changeOf kind step element = .ok change) :
    refiner.Asks step element kind change := by
  cases kind with
  | filter =>
    cases present : step.filter with
    | none => simp [changeOf, present, malformed] at made
    | some filter =>
      simp only [changeOf, present, bind_eq_ok, pure_eq_ok] at made
      obtain ⟨predicate, bound, rfl⟩ := made
      exact .filter present bound
  | arrangement =>
    cases present : step.arrangement with
    | none => simp [changeOf, present, malformed] at made
    | some arrangement =>
      simp only [changeOf, present, bind_eq_ok, pure_eq_ok] at made
      obtain ⟨transform, bound, rfl⟩ := made
      exact .arrangement present bound

theorem filterChange_eq_ok {predicate : Lambda} {site : RefinementSite}
    (made : refiner.filterChange predicate site sequence = .ok changed) :
    ∃ used, changed = sequence.filteredBy used ∧
      if site = .model then used = predicate
      else refiner.mapping.lambdaToSource predicate = .ok used := by
  cases site with
  | model =>
    cases made
    exact ⟨predicate, rfl, rfl⟩
  | belowSelection | mapped =>
    simp only [filterChange] at made
    split at made
    next =>
      simp only [bind_eq_ok, pure_eq_ok] at made
      obtain ⟨mapped, accepted, rfl⟩ := made
      exact ⟨mapped, rfl, (Mapping.predicateToSource_eq_ok accepted).1⟩
    next => simp at made

inductive LandsBelow (change : Expr → Outcome Expr) : Expr → Expr → Prop where
  | here {receiver inner : Expr} {rest : List Expr} {ty : DataType}
      (noSelection : hasSelection receiver = false) (made : change receiver = .ok inner) :
      LandsBelow change (.call .select (receiver :: rest) ty) (.apply .select (inner :: rest))
  | around {method : SequenceMethod} {receiver inner : Expr} {rest : List Expr} {ty : DataType}
      (selects : hasSelection receiver = true) (lands : LandsBelow change receiver inner) :
      LandsBelow change (.call method (receiver :: rest) ty) (.apply method (inner :: rest))

theorem LandsBelow.hasSelection {change : Expr → Outcome Expr}
    (lands : LandsBelow change value changed) : hasSelection value = true := by
  cases lands with
  | here _ _ => rfl
  | around selects _ => simp [Refiner.hasSelection, selects]

theorem landsBelow_of_changeSelected {change : Expr → Outcome Expr} (value : Expr) {changed : Expr}
    (selects : hasSelection value = true) (made : changeSelected change value = .ok changed) :
    LandsBelow change value changed := by
  match value with
  | .call method [] _ => simp [changeSelected, malformed] at made
  | .call method (receiver :: rest) _ =>
    simp only [changeSelected] at made
    split at made
    next deeper =>
      simp only [bind_eq_ok, pure_eq_ok] at made
      obtain ⟨inner, isInner, rfl⟩ := made
      exact .around deeper (landsBelow_of_changeSelected receiver deeper isInner)
    next noSelection =>
      have noSelection : hasSelection receiver = false := by simpa using noSelection
      obtain rfl : method = .select := by simpa [hasSelection, noSelection] using selects
      simp only [if_true, bind_eq_ok, pure_eq_ok] at made
      obtain ⟨inner, isInner, rfl⟩ := made
      exact .here noSelection isInner
  | .source _ | .parameter _ | .constant _ _ | .member _ _ _ | .construct _ _ | .lambda _ _
  | .binary _ _ _ | .negation _ | .conditional _ _ _ _ | .convert _ _ | .function _ _ =>
    simp [hasSelection] at selects

inductive LandsOn (change : SequenceChange) (element : String) (value : Expr) : Expr → Prop where
  | below {changed : Expr} (selects : hasSelection value = true)
      (lands : LandsBelow (change .belowSelection) value changed) :
      LandsOn change element value changed
  | bare {inner : Expr} (noSelection : hasSelection value = false)
      (many : value.type.isCollection = true)
      (made : change (if value.type.typeName? = some element then .model else .mapped) value =
        .ok inner) :
      LandsOn change element value (inner.coercedTo value.type.collectionKind?)

theorem landsOn_of_changeSequence {change : SequenceChange}
    (made : changeSequence change step element value = .ok changed) :
    LandsOn change element value changed := by
  unfold changeSequence at made
  split at made
  next selects => exact .below selects (landsBelow_of_changeSelected value selects made)
  next noSelection =>
    split at made
    next many =>
      simp only [bind_eq_ok, pure_eq_ok] at made
      obtain ⟨inner, isInner, rfl⟩ := made
      exact .bare (by simpa using noSelection) many isInner
    next => simp [malformed] at made

theorem LandsOn.landsBelow {change : SequenceChange} (lands : LandsOn change element value changed)
    (selects : hasSelection value = true) : LandsBelow (change .belowSelection) value changed := by
  cases lands with
  | below _ lands => exact lands
  | bare noSelection _ _ => exact absurd (noSelection.symm.trans selects) Bool.false_ne_true

theorem not_landsOn_construct {change : SequenceChange} (typeName : String)
    (bindings : List (String × Expr)) :
    ¬ LandsOn change element (.construct (.named typeName) bindings) changed := by
  rintro (⟨selects, -⟩ | ⟨-, many, -⟩)
  · cases selects
  · cases many

inductive Lands (change : SequenceChange) (element : String) : Expr → Expr → Prop where
  | guarded {test whenNull value changed : Expr} {ty : DataType}
      (lands : LandsOn change element value changed) :
      Lands change element (.conditional test whenNull value ty)
        (.conditional test whenNull changed ty)
  | unguarded {value changed : Expr}
      (notGuarded : ∀ test whenNull present ty, value ≠ .conditional test whenNull present ty)
      (lands : LandsOn change element value changed) : Lands change element value changed

theorem Lands.guarded_iff {change : SequenceChange} {test whenNull : Expr} {ty : DataType} :
    Lands change element (.conditional test whenNull value ty) changed ↔
      ∃ inner, LandsOn change element value inner ∧ changed = .conditional test whenNull inner ty := by
  constructor
  · rintro (lands | ⟨notGuarded, -⟩)
    · exact ⟨_, lands, rfl⟩
    · exact absurd rfl (notGuarded _ _ _ _)
  · rintro ⟨inner, lands, rfl⟩
    exact .guarded lands

theorem lands_of_changeMember (made : refiner.changeMember kind step value = .ok changed) :
    ∃ element change, step.memberType.typeName? = some element ∧
      refiner.Asks step element kind change ∧ Lands change element value changed := by
  unfold changeMember at made
  split at made
  next element named =>
    obtain ⟨change, isChange, landed⟩ := bind_eq_ok.1 made
    refine ⟨element, change, named, asks_of_changeOf isChange, ?_⟩
    unfold changeValue at landed
    split at landed
    next =>
      simp only [bind_eq_ok, pure_eq_ok] at landed
      obtain ⟨inner, isInner, rfl⟩ := landed
      exact .guarded (landsOn_of_changeSequence isInner)
    next notGuarded => exact .unguarded (by simpa using notGuarded) (landsOn_of_changeSequence landed)
  next => simp [malformed] at made

theorem descend_record {change : ExpansionStep → Expr → Outcome Expr} {rest : ExpansionSteps}
    {ty : DataType} {bindings : List (String × Expr)} {refined : Expr}
    (isParent : ty.typeName? = some step.parentType) :
    descend change step rest (.construct ty bindings) = .ok refined ↔
      ∃ results, followBindings change step rest bindings = .ok results ∧
        .construct ty results = refined := by
  simp only [descend, if_pos isParent, bind_eq_ok, pure_eq_ok]

end QueryProjection.Refiner
