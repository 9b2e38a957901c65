import QueryProjection.Proofs.Evaluation.Levels
import QueryProjection.Proofs.Expansion.Refinement

set_option autoImplicit false

namespace QueryProjection

open Outcome Evaluation

structure ExpandOptions where
  filter : Option ScopedFilter
  arrangement : Option Arrangement

namespace ExpandOptions

def unrefined : ExpandOptions := ⟨none, none⟩

def withStep (options : ExpandOptions) (kind : RefinementKind) (step : ExpansionStep) :
    ExpandOptions :=
  match kind with
  | .filter => { options with filter := step.filter }
  | .arrangement => { options with arrangement := step.arrangement }

def Accepts (options : ExpandOptions) : RefinementKind → Prop
  | .filter => options.filter = none ∧ options.arrangement = none
  | .arrangement => options.arrangement = none

end ExpandOptions

namespace Refiner

def sourcePredicate (refiner : Refiner) (filter : ScopedFilter) : Outcome Lambda := do
  refiner.mapping.lambdaToSource (← filter.bind refiner.mapping.schema)

def sourceLevels (refiner : Refiner) (element : String) (order : List OrderKey) :
    Outcome (List OrderLevel) := do
  let binder : Binder := ⟨refiner.mapping.schema, element, refiner.context⟩
  refiner.mapping.levelsToSource (← binder.levels order)

def passing (refiner : Refiner) (rows : List Value) (filter : Option ScopedFilter)
    (items : List Value) : Outcome (List Value) :=
  match filter with
  | none => .ok items
  | some filter => do
      let predicate ← refiner.sourcePredicate filter
      itemsWhere (predicate.valueOn rows) items

def arranged (refiner : Refiner) (rows : List Value) (element : String)
    (arrangement : Option Arrangement) (items : List Value) : Outcome (List Value) :=
  match arrangement with
  | none => .ok items
  | some arrangement => do
      let levels ← refiner.sourceLevels element arrangement.order
      OrderLevel.arranged rows levels arrangement.skip arrangement.top items

def elements (refiner : Refiner) (rows : List Value) (element : String) (options : ExpandOptions)
    (items : List Value) : Outcome (List Value) := do
  refiner.arranged rows element options.arrangement (← refiner.passing rows options.filter items)

variable {refiner : Refiner} {element : String} {options : ExpandOptions}
  {collection sequence changed : Expr} {step : ExpansionStep}

structure Refined (refiner : Refiner) (element : String) (options : ExpandOptions)
    (collection sequence : Expr) : Prop where
  noSelection : hasSelection sequence = false
  constructFree : sequence.ConstructFree
  yields : ∀ rows scope, Yields rows scope sequence
    (itemsIn rows scope collection >>= refiner.elements rows element options)

theorem refined_itself (noSelection : hasSelection collection = false)
    (free : collection.ConstructFree) :
    Refined refiner element .unrefined collection collection where
  noSelection := noSelection
  constructFree := free
  yields rows scope := by
    apply (Yields.itself rows scope collection).congr
    cases itemsIn rows scope collection with
    | error cause => exact .refl _
    | ok items => exact .refl _

theorem Refined.filtered {change : SequenceChange} (refined : Refined refiner element options
      collection sequence)
    (accepts : options.Accepts .filter) (asks : refiner.Asks step element .filter change)
    (made : change .belowSelection sequence = .ok changed) :
    Refined refiner element (options.withStep .filter step) collection changed := by
  obtain ⟨unfiltered, unarranged⟩ := accepts
  cases asks with
  | @filter filter predicate present bound =>
    obtain ⟨mapped, rfl, translated⟩ := filterChange_eq_ok made
    rw [if_neg (by decide)] at translated
    obtain ⟨same, built⟩ := Filter.bind_eq_ok bound
    have closed : predicate.body.ScopedIn [predicate.parameter] := same ▸ built.scopedIn
    obtain ⟨-, closedMapped, free⟩ := Mapping.lambdaToSource_spec closed translated
    have isPredicate : refiner.sourcePredicate filter = .ok mapped := by
      simp only [sourcePredicate, bound, ok_bind, translated]
    constructor
    · simp only [Expr.filteredBy, Expr.apply, hasSelection, refined.noSelection, Bool.or_false]
      decide
    · exact ⟨refined.constructFree, free, trivial⟩
    · intro rows scope
      have yields := (refined.yields rows scope).filter mapped.parameter mapped.body
        (Expr.callType .filter [sequence, .ofLambda mapped])
      apply yields.congr
      cases itemsIn rows scope collection with
      | error cause => exact .failed _ _
      | ok items =>
        -- Nothing has been refined so far, so the predicate is all there is.
        simp only [ok_bind, elements, passing, arranged, ExpandOptions.withStep, unfiltered, unarranged,
          present, isPredicate, bind_ok]
        exact itemsWhere_agree (fun item => eval_closed rows closedMapped item scope) items

theorem Refined.arranged {change : SequenceChange} (refined : Refined refiner element options
      collection sequence)
    (accepts : options.Accepts .arrangement)
    (asks : refiner.Asks step element .arrangement change)
    (made : change .belowSelection sequence = .ok changed) :
    Refined refiner element (options.withStep .arrangement step) collection changed := by
  have unarranged : options.arrangement = none := accepts
  cases asks with
  | @arrangement arrangement transform present bound =>
    obtain ⟨levels, areLevels, keys, -, rfl⟩ := transformOf_eq_ok bound
    obtain ⟨used, areKeys, mapped, arranges⟩ := arrangementChange_eq_ok keys made
    rw [if_neg (by decide)] at mapped
    rw [if_pos rfl] at arranges
    -- Below the selection the elements are source records, so the keys are the translated ones.
    have areUsed : refiner.sourceLevels element arrangement.order = .ok used := by
      simp only [sourceLevels, areLevels, ok_bind, mapped]
    obtain ⟨-, free⟩ := Mapping.levelsToSource_spec keys mapped
    constructor
    · apply arranges.preserves (fun expr => hasSelection expr = false) _ (fun _ => rfl)
        (fun _ _ => rfl) refined.noSelection
      intro method first second ty other noSelection _
      simp only [hasSelection, noSelection, Bool.or_false]
      exact beq_false_of_ne other
    · exact arranges.constructFree free refined.constructFree
    · intro rows scope
      apply ((refined.yields rows scope).arranged arranges).congr
      cases itemsIn rows scope collection with
      | error cause => exact .failed _ _
      | ok items =>
        simp only [ok_bind, elements, ExpandOptions.withStep, unarranged, present, Refiner.arranged,
          areUsed]
        cases refiner.passing rows options.filter items with
        | error cause => exact .failed _ _
        | ok kept =>
          simp only [ok_bind, ← OrderLevel.arrangeItems_eq]
          exact arrangeItems_agree (sortKeys_alike rows areKeys.closed scope) _ _ kept

theorem Refined.withStep {kind : RefinementKind} {change : SequenceChange}
    (refined : Refined refiner element options collection sequence) (accepts : options.Accepts kind)
    (asks : refiner.Asks step element kind change) (made : change .belowSelection sequence = .ok changed) :
    Refined refiner element (options.withStep kind step) collection changed := by
  cases kind with
  | filter => exact refined.filtered accepts asks made
  | arrangement => exact refined.arranged accepts asks made

end Refiner

end QueryProjection
