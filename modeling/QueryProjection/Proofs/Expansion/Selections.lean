import QueryProjection.Proofs.Expansion.Elements
import QueryProjection.Proofs.Expr.Subterms

set_option autoImplicit false

namespace QueryProjection

open Outcome Evaluation

/-- A selection of the sequence, converted to a kind of collection where need be. -/
inductive Selects (sequence : Expr) (item : Parameter) (body : Expr) : Expr → Prop where
  | bare (ty : DataType) : Selects sequence item body (.call .select [sequence, .lambda item body] ty)
  | converted {method : SequenceMethod} (ty ty' : DataType)
      (converts : method ∈ [SequenceMethod.toList, .toArray, .asQueryable]) :
      Selects sequence item body (.call method [.call .select [sequence, .lambda item body] ty'] ty)

namespace Selects

variable {sequence body selection changed : Expr} {item : Parameter}

theorem coercedTo (sequence : Expr) (item : Parameter) (body : Expr) (kind : Option CollectionKind) :
    Selects sequence item body ((sequence.selected ⟨item, body⟩).coercedTo kind) := by
  unfold Expr.coercedTo
  split
  · exact .converted _ _ (by decide)
  · exact .converted _ _ (by decide)
  · exact .converted _ _ (by decide)
  · exact .bare _
  · exact .bare _

theorem elementType_coercedTo (sequence : Expr) (item : Parameter) {body : Expr} {element : String}
    (typed : body.type = .named element) (kind : Option CollectionKind) :
    ∃ kind', ((sequence.selected ⟨item, body⟩).coercedTo kind).type =
      .collection kind' (.named element) := by
  have selected : ∃ kind', (sequence.selected ⟨item, body⟩).type =
      .collection kind' (.named element) := by
    refine ⟨if sequence.type.collectionKind? = some .queryable then .queryable else .enumerable, ?_⟩
    simp only [Expr.selected, Expr.apply, Expr.type, Expr.callType, Expr.ofLambda, typed,
      List.getElem?_cons_succ, List.getElem?_cons_zero, Option.map_some, Option.getD_some]
    rfl
  obtain ⟨kind', isType⟩ := selected
  have inner : (sequence.selected ⟨item, body⟩).type.elementType = .named element := by
    rw [isType]
    rfl
  unfold Expr.coercedTo
  split
  · exact ⟨.list, congrArg _ inner⟩
  · exact ⟨.array, congrArg _ inner⟩
  · exact ⟨.queryable, congrArg _ inner⟩
  · exact ⟨kind', isType⟩
  · exact ⟨kind', isType⟩

theorem unique {sequence' body' : Expr} {item' : Parameter} (selects : Selects sequence item body selection)
    (selects' : Selects sequence' item' body' selection) :
    sequence = sequence' ∧ item = item' ∧ body = body' := by
  cases selects with
  | bare ty =>
    cases selects' with
    | bare _ => exact ⟨rfl, rfl, rfl⟩
  | converted ty ty' converts =>
    cases selects' with
    | converted _ _ _ => exact ⟨rfl, rfl, rfl⟩

theorem not_constructFree {ty : DataType} {bindings : List (String × Expr)}
    (selects : Selects sequence item (.construct ty bindings) selection) :
    ¬ selection.ConstructFree := by
  intro free
  cases selects with
  | bare ty => exact free.2.1
  | converted ty ty' converts => exact free.1.2.1

theorem mem_body {ty : DataType} {bindings : List (String × Expr)}
    (selects : Selects sequence item body selection) (free : sequence.ConstructFree)
    (isBelow : .construct ty bindings ∈ selection.subterms) :
    .construct ty bindings ∈ body.subterms := by
  have notSequence := Expr.not_mem_subterms sequence free ty bindings
  cases selects with
  | bare ty => simpa [Expr.subterms, Expr.allSubterms, notSequence] using isBelow
  | converted ty ty' converts => simpa [Expr.subterms, Expr.allSubterms, notSequence] using isBelow

theorem callsTo (selects : Selects sequence item body selection) :
    ∃ made : List SequenceMethod, made ⊆ [.select, .toList, .toArray, .asQueryable] ∧
      ∀ method, selection.callsTo method =
        sequence.callsTo method + body.callsTo method + made.count method := by
  cases selects with
  | bare ty => exact ⟨[.select], by decide, fun method => by simp⟩
  | @converted converts ty ty' converted =>
    refine ⟨[.select, converts], ?_, fun method => ?_⟩
    · simp only [List.mem_cons, List.not_mem_nil, or_false] at converted
      rcases converted with rfl | rfl | rfl <;> decide
    · simp [List.count_cons, Nat.add_assoc]
      omega

theorem hasSelection (selects : Selects sequence item body selection) :
    Refiner.hasSelection selection = true := by
  cases selects with
  | bare ty => rfl
  | converted ty ty' converts =>
    simp only [Refiner.hasSelection, beq_self_eq_true, Bool.true_or, Bool.or_true]

theorem landsBelow {change : Expr → Outcome Expr}
    (selects : Selects sequence item body selection)
    (noSelection : Refiner.hasSelection sequence = false)
    (lands : Refiner.LandsBelow change selection changed) :
    ∃ inner, change sequence = .ok inner ∧ Selects inner item body changed := by
  have stops {inner : Expr} : ¬ Refiner.LandsBelow change sequence inner := fun lands =>
    Bool.false_ne_true (noSelection.symm.trans lands.hasSelection)
  cases selects with
  | bare ty =>
    cases lands with
    | here _ made => exact ⟨_, made, .bare _⟩
    | around _ lands => exact absurd lands stops
  | converted ty ty' converts =>
    cases lands with
    | here noSelection _ => simp [Refiner.hasSelection] at noSelection
    | around _ lands =>
      cases lands with
      | here _ made => exact ⟨_, made, .converted _ _ converts⟩
      | around _ lands => exact absurd lands stops

theorem descend {change : ExpansionStep → Expr → Outcome Expr} {step : ExpansionStep}
    {rest : ExpansionSteps} (selects : Selects sequence item body selection)
    (free : sequence.ConstructFree)
    (descended : Refiner.descend change step rest selection = .ok changed) :
    ∃ body', Refiner.descend change step rest body = .ok body' ∧
      Selects sequence item body' changed ∧ ∀ method,
        changed.callsTo method + body.callsTo method =
          selection.callsTo method + body'.callsTo method := by
  cases selects with
  | bare ty =>
    simp only [Refiner.descend, Refiner.descendAll,
      Refiner.descend_constructFree change step rest sequence free, ok_bind, bind_eq_ok,
      pure_eq_ok] at descended
    obtain ⟨_, ⟨_, ⟨_, ⟨body', inner, rfl⟩, _, rfl, rfl⟩, rfl⟩, rfl⟩ := descended
    exact ⟨body', inner, .bare _, fun method => by simp; omega⟩
  | converted ty ty' converts =>
    simp only [Refiner.descend, Refiner.descendAll,
      Refiner.descend_constructFree change step rest sequence free, ok_bind, bind_eq_ok,
      pure_eq_ok] at descended
    obtain ⟨_, ⟨_, ⟨_, ⟨_, ⟨_, ⟨body', inner, rfl⟩, _, rfl, rfl⟩, rfl⟩, rfl⟩, _, rfl, rfl⟩, rfl⟩ :=
      descended
    exact ⟨body', inner, .converted _ _ converts, fun method => by simp; omega⟩

theorem yields (selects : Selects sequence item body selection) (rows : List Value) (scope : Scope) :
    Yields rows scope selection (itemsIn rows scope sequence >>= mapItems fun value =>
      eval rows ((item.name, value) :: scope) body) := by
  have selected (ty : DataType) := (Yields.itself rows scope sequence).select item body ty
  cases selects with
  | bare ty => exact selected ty
  | converted ty ty' converts => exact (selected ty').conversion converts ty

end Selects

end QueryProjection
