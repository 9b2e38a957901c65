import QueryProjection.Proofs.Expansion.Calls

set_option autoImplicit false

namespace QueryProjection

open Outcome

/-- The refined expression has the calls of the other one and these, and perhaps further conversions. -/
structure Expr.GainsCalls (calls : List SequenceMethod) (expr refined : Expr) : Prop where
  atLeast : ∀ method, expr.callsTo method + calls.count method ≤ refined.callsTo method
  exactly : ∀ method, method ∉ [SequenceMethod.toList, .toArray, .asQueryable] →
    refined.callsTo method = expr.callsTo method + calls.count method

namespace Expr

variable {calls : List SequenceMethod} {expr refined : Expr}

theorem AddsCalls.gains (adds : AddsCalls calls expr refined) : GainsCalls calls expr refined :=
  ⟨fun method => Nat.le_of_eq (adds method).symm, fun method _ => adds method⟩

namespace GainsCalls

theorem conditional {test whenTrue : Expr} {ty : DataType} (gains : GainsCalls calls expr refined) :
    GainsCalls calls (.conditional test whenTrue expr ty) (.conditional test whenTrue refined ty) where
  atLeast method := by
    have least := gains.atLeast method
    simp only [callsTo_conditional]
    omega
  exactly method other := by
    have exact_ := gains.exactly method other
    simp only [callsTo_conditional]
    omega

theorem converted {method : SequenceMethod} {ty : DataType}
    (converts : method ∈ [SequenceMethod.toList, .toArray, .asQueryable])
    (gains : GainsCalls calls expr refined) : GainsCalls calls expr (.call method [refined] ty) where
  atLeast other := by
    have least := gains.atLeast other
    simp only [callsTo_call, List.map_cons, List.map_nil, List.sum_cons, List.sum_nil]
    omega
  exactly other isOther := by
    have apart : method ≠ other := fun same => isOther (same ▸ converts)
    have exact_ := gains.exactly other isOther
    simp [exact_, apart]

theorem of_converted {method : SequenceMethod} {ty : DataType}
    (converts : method ∈ [SequenceMethod.toList, .toArray, .asQueryable])
    (adds : AddsCalls calls (.call method [expr] ty) refined) : GainsCalls calls expr refined where
  atLeast other := by
    have total := adds other
    simp only [callsTo_call, List.map_cons, List.map_nil, List.sum_cons, List.sum_nil] at total
    omega
  exactly other isOther := by
    have apart : method ≠ other := fun same => isOther (same ▸ converts)
    have total := adds other
    simpa [apart] using total

theorem coercedTo (gains : GainsCalls calls expr refined) (kind : Option CollectionKind) :
    GainsCalls calls expr (refined.coercedTo kind) := by
  unfold Expr.coercedTo
  split
  · exact gains.converted (by decide)
  · exact gains.converted (by decide)
  · exact gains.converted (by decide)
  · exact gains
  · exact gains

end GainsCalls

end Expr

namespace Refiner

variable {refiner : Refiner} {kind : RefinementKind} {step : ExpansionStep} {element : String}
  {change : SequenceChange} {site : RefinementSite} {sequence value changed : Expr}
  {calls : List SequenceMethod}

theorem Asks.gains (asks : refiner.Asks step element kind change)
    (made : change site sequence = .ok changed) :
    Expr.GainsCalls (step.calls kind) sequence changed := by
  have adds := asks.adds made
  cases site with
  | belowSelection => exact adds.gains
  | model | mapped =>
    cases kind with
    | filter => exact adds.gains
    | arrangement =>
      -- A bare collection is made queryable first, which is one more call.
      exact .of_converted (by decide) adds

theorem LandsOn.gains (lands : LandsOn change element value changed)
    (asks : refiner.Asks step element kind change) :
    Expr.GainsCalls (step.calls kind) value changed := by
  cases lands with
  | below _ lands => exact (lands.adds fun _ _ made => asks.adds made).gains
  | bare _ _ made => exact (asks.gains made).coercedTo _

theorem changeMember_gains (made : refiner.changeMember kind step value = .ok changed) :
    Expr.GainsCalls (step.calls kind) value changed := by
  obtain ⟨element, change, -, asks, lands⟩ := lands_of_changeMember made
  cases lands with
  | guarded lands => exact (lands.gains asks).conditional
  | unguarded _ lands => exact lands.gains asks

end Refiner

end QueryProjection
