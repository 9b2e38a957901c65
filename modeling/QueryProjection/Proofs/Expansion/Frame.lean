import QueryProjection.Proofs.Expansion.Placement
import QueryProjection.Proofs.Expr.Positions

set_option autoImplicit false

namespace QueryProjection

open Outcome

def Expr.isRecordOf (typeName : String) : Expr → Bool
  | .construct ty _ => ty.typeName? == some typeName
  | _ => false

/-- The steps lead from an expression to a value at some position: each of them through an outermost
record of its parent type, to a binding of its member. -/
inductive ExpansionSteps.LeadTo : ExpansionSteps → Expr → Position → Expr → Prop where
  | within {step : ExpansionStep} {rest : ExpansionSteps} {expr child value : Expr} {index : Nat}
      {position : Position} (outside : expr.isRecordOf step.parentType = false)
      (isChild : expr.children[index]? = some child)
      (inner : LeadTo (step :: rest) child position value) :
      LeadTo (step :: rest) expr (index :: position) value
  | here {step : ExpansionStep} {ty : DataType} {bindings : List (String × Expr)} {index : Nat}
      {name : String} {value : Expr} (isParent : ty.typeName? = some step.parentType)
      (isBinding : bindings[index]? = some (name, value))
      (leads : Refiner.leadsTo step name value = true) :
      LeadTo [step] (.construct ty bindings) [index] value
  | further {step next : ExpansionStep} {later : ExpansionSteps} {ty : DataType}
      {bindings : List (String × Expr)} {index : Nat} {name : String} {bound value : Expr}
      {position : Position} (isParent : ty.typeName? = some step.parentType)
      (isBinding : bindings[index]? = some (name, bound))
      (leads : Refiner.leadsTo step name bound = true)
      (follows : LeadTo (next :: later) bound position value) :
      LeadTo (step :: next :: later) (.construct ty bindings) (index :: position) value

namespace ExpansionSteps

def LeadFrom : ExpansionSteps → Expr → Position → Expr → Prop
  | [], bound, position, value => position = [] ∧ bound = value
  | next :: later, bound, position, value => LeadTo (next :: later) bound position value

end ExpansionSteps

namespace ExpansionSteps.LeadTo

variable {step : ExpansionStep} {rest steps : ExpansionSteps} {expr value : Expr}
  {position : Position} {ty : DataType} {bindings : List (String × Expr)} {index : Nat}

theorem outside_iff (outside : expr.isRecordOf step.parentType = false) :
    LeadTo (step :: rest) expr position value ↔
      ∃ index inner child, position = index :: inner ∧ expr.children[index]? = some child ∧
        LeadTo (step :: rest) child inner value := by
  constructor
  · intro leads
    cases leads with
    | within _ isChild inner => exact ⟨_, _, _, rfl, isChild, inner⟩
    | here isParent _ _ | further isParent _ _ _ => simp [Expr.isRecordOf, isParent] at outside
  · rintro ⟨index, inner, child, rfl, isChild, leads⟩
    exact .within outside isChild leads

theorem record_iff (isParent : ty.typeName? = some step.parentType) :
    LeadTo (step :: rest) (.construct ty bindings) position value ↔
      ∃ index inner binding, position = index :: inner ∧ bindings[index]? = some binding ∧
        Refiner.leadsTo step binding.1 binding.2 = true ∧ LeadFrom rest binding.2 inner value := by
  constructor
  · intro leads
    cases leads with
    | within outside => simp [Expr.isRecordOf, isParent] at outside
    | here _ isBinding leads => exact ⟨_, _, _, rfl, isBinding, leads, rfl, rfl⟩
    | further _ isBinding leads follows => exact ⟨_, _, _, rfl, isBinding, leads, follows⟩
  · rintro ⟨index, inner, ⟨name, bound⟩, rfl, isBinding, leads, follows⟩
    cases rest with
    | nil =>
      obtain ⟨rfl, rfl⟩ := follows
      exact .here isParent isBinding leads
    | cons following later => exact .further isParent isBinding leads follows

theorem subterms_subset (leads : LeadTo steps expr position value) :
    value.subterms ⊆ expr.subterms := by
  induction leads with
  | within _ isChild _ ih =>
    exact List.Subset.trans ih (Expr.subterms_subset_of_mem_children (List.mem_of_getElem? isChild))
  | here _ isBinding _ =>
    exact Expr.subterms_subset_of_mem_children
      (List.mem_map.2 ⟨_, List.mem_of_getElem? isBinding, rfl⟩)
  | further _ isBinding _ _ ih =>
    exact List.Subset.trans ih (Expr.subterms_subset_of_mem_children
      (List.mem_map.2 ⟨_, List.mem_of_getElem? isBinding, rfl⟩))

theorem leadsTo_last (leads : LeadTo steps expr position value) :
    ∃ step name, steps.getLast? = some step ∧ Refiner.leadsTo step name value = true := by
  induction leads with
  | within _ _ _ ih => exact ih
  | here _ _ leads => exact ⟨_, _, rfl, leads⟩
  | further _ _ _ _ ih => simpa using ih

end ExpansionSteps.LeadTo

namespace Refiner

open ExpansionSteps

variable {change : ExpansionStep → Expr → Outcome Expr} {step : ExpansionStep}
  {rest : ExpansionSteps} {expr refined : Expr}

structure Replaces (change : Expr → Outcome Expr) (leads : Position → Expr → Prop)
    (new : Position → Option Expr) : Prop where
  there : ∀ {position value}, leads position value →
    ∃ changed, change value = .ok changed ∧ new position = some changed
  elsewhere : ∀ {position}, (∀ value, ¬ leads position value) → new position = none

theorem Replaces.isSome_iff {change : Expr → Outcome Expr} {leads : Position → Expr → Prop}
    {new : Position → Option Expr} {position : Position} (replaces : Replaces change leads new) :
    (new position).isSome = true ↔ ∃ value, leads position value := by
  constructor
  · intro replaced
    by_contra notLed
    simp [replaces.elsewhere (not_exists.1 notLed)] at replaced
  · rintro ⟨value, isLed⟩
    obtain ⟨changed, -, isNew⟩ := replaces.there isLed
    simp [isNew]

theorem Replaces.node {α : Type} {change : Expr → Outcome Expr} {items : List α}
    {leads : Position → Expr → Prop} {leadsFrom : α → Position → Expr → Prop}
    {news : Nat → Position → Option Expr}
    (shape : ∀ position value, leads position value ↔ ∃ index inner item,
      position = index :: inner ∧ items[index]? = some item ∧ leadsFrom item inner value)
    (each : ∀ (index : Nat) (item : α), items[index]? = some item →
      Replaces change (leadsFrom item) (news index))
    (outside : ∀ index : Nat, items[index]? = none → ∀ position, news index position = none) :
    Replaces change leads fun
      | [] => none
      | index :: inner => news index inner where
  there := by
    intro position value isLed
    obtain ⟨index, inner, item, rfl, isItem, follows⟩ := (shape position value).1 isLed
    exact (each index item isItem).there follows
  elsewhere := by
    rintro (_ | ⟨index, inner⟩) notLed
    · rfl
    · cases isItem : items[index]? with
      | none => exact outside index isItem inner
      | some item =>
        refine (each index item isItem).elsewhere fun value follows => ?_
        exact notLed value ((shape _ _).2 ⟨index, inner, item, rfl, isItem, follows⟩)

theorem descendAll_eq_ok {exprs results : List Expr} :
    descendAll change step rest exprs = .ok results ↔
      List.Forall₂ (fun expr result => descend change step rest expr = .ok result) exprs results := by
  induction exprs generalizing results with
  | nil => simp [descendAll, eq_comm]
  | cons expr others ih =>
    simp only [descendAll, bind_eq_ok, pure_eq_ok, ih]
    constructor
    · rintro ⟨first, isFirst, later, areLater, rfl⟩
      exact .cons isFirst areLater
    · intro all
      cases all with
      | cons isFirst areLater => exact ⟨_, isFirst, _, areLater, rfl⟩

theorem descendBindings_eq (bindings : List (String × Expr)) :
    descendBindings change step rest bindings =
      descendAll change step rest (bindings.map fun binding => binding.2) >>= fun values =>
        pure ((bindings.map fun binding => binding.1).zip values) := by
  induction bindings with
  | nil => rfl
  | cons binding others ih =>
    obtain ⟨name, value⟩ := binding
    simp only [descendBindings, descendAll, List.map_cons, ih]
    cases descend change step rest value with
    | error cause => rfl
    | ok first =>
      cases descendAll change step rest (others.map fun binding => binding.2) <;> rfl

theorem descend_outside (outside : expr.isRecordOf step.parentType = false) :
    descend change step rest expr =
      descendAll change step rest expr.children >>= fun results =>
        pure (expr.withChildren results) := by
  cases expr with
  | construct ty bindings =>
    have other : ty.typeName? ≠ some step.parentType := by
      simpa [Expr.isRecordOf] using outside
    simp only [descend, if_neg other, descendBindings_eq, Expr.children]
    cases descendAll change step rest (bindings.map fun binding => binding.2) <;> rfl
  | source _ | parameter _ | constant _ _ => rfl
  | member target _ _ | negation target | convert target _ | lambda _ target =>
    simp only [descend, descendAll, Expr.children]
    cases descend change step rest target <;> rfl
  | call _ arguments _ | function _ arguments =>
    simp only [descend, Expr.children]
    cases descendAll change step rest arguments <;> rfl
  | binary _ left right =>
    simp only [descend, descendAll, Expr.children]
    cases descend change step rest left with
    | error cause => rfl
    | ok first => cases descend change step rest right <;> rfl
  | conditional test whenTrue whenFalse _ =>
    simp only [descend, descendAll, Expr.children]
    cases descend change step rest test with
    | error cause => rfl
    | ok first =>
      cases descend change step rest whenTrue with
      | error cause => rfl
      | ok second => cases descend change step rest whenFalse <;> rfl

theorem followBindings_eq_ok {bindings results : List (String × Expr)}
    (follows : followBindings change step rest bindings = .ok results) :
    ∃ values, results = (bindings.map fun binding => binding.1).zip values ∧
      List.Forall₂ (fun binding value => (if leadsTo step binding.1 binding.2 then
        followed change step rest binding.2 else .ok binding.2) = .ok value) bindings values := by
  induction bindings generalizing results with
  | nil =>
    simp only [followBindings, Except.ok.injEq] at follows
    exact ⟨[], follows.symm, .nil⟩
  | cons binding others ih =>
    obtain ⟨name, value⟩ := binding
    simp only [followBindings_cons, bind_eq_ok, pure_eq_ok] at follows
    obtain ⟨first, isFirst, later, areLater, rfl⟩ := follows
    obtain ⟨values, rfl, all⟩ := ih areLater
    exact ⟨first :: values, rfl, .cons isFirst all⟩

theorem Replaces.single {change : Expr → Outcome Expr} {bound changed : Expr}
    (made : change bound = .ok changed) :
    Replaces change (LeadFrom [] bound) fun position => if position = [] then some changed else none where
  there := by
    rintro position value ⟨rfl, rfl⟩
    exact ⟨changed, made, rfl⟩
  elsewhere := by
    intro position notLed
    have inside : position ≠ [] := fun root => notLed bound ⟨root, rfl⟩
    rw [if_neg inside]

theorem followed_replaces {name : String} {bound result : Expr}
    (inner : ∀ {next : ExpansionStep} {later : ExpansionSteps} {result : Expr},
      descend change next later bound = .ok result → ∃ new, result = bound.replaceAt new ∧
        Replaces (change (later.getLastD next)) (LeadTo (next :: later) bound) new)
    (made : (if leadsTo step name bound then followed change step rest bound else .ok bound) =
      .ok result) :
    ∃ new, result = bound.replaceAt new ∧ Replaces (change (rest.getLastD step))
      (fun position value => leadsTo step name bound = true ∧ LeadFrom rest bound position value)
      new := by
  cases leads : leadsTo step name bound with
  | false =>
    rw [leads] at made
    simp only [Bool.false_eq_true, if_false, Except.ok.injEq] at made
    refine ⟨fun _ => none, ?_, by simp, fun _ => rfl⟩
    rw [← made, Expr.replaceAt_eq_self bound fun _ => rfl]
  | true =>
    rw [leads, if_pos rfl] at made
    simp only [true_and]
    cases rest with
    | nil =>
      refine ⟨_, ?_, .single made⟩
      rw [Expr.replaceAt_eq, if_pos rfl, Option.getD_some]
    | cons next later =>
      rw [List.getLastD_cons]
      exact inner made

theorem descend_replaces (expr : Expr) {step : ExpansionStep} {rest : ExpansionSteps} {refined : Expr}
    (descended : descend change step rest expr = .ok refined) :
    ∃ new, refined = expr.replaceAt new ∧
      Replaces (change (rest.getLastD step)) (LeadTo (step :: rest) expr) new := by
  -- Below a binding there are fewer steps, and outside of the records the same ones, so that the
  -- induction is on the expression and the steps vary.
  induction expr using Expr.child_induction generalizing step rest refined with
  | node expr ih =>
    cases outside : expr.isRecordOf step.parentType with
    | false =>
      simp only [descend_outside outside, bind_eq_ok, pure_eq_ok] at descended
      obtain ⟨results, areResults, rfl⟩ := descended
      obtain ⟨news, rfl, each, elsewhere⟩ := Expr.exists_replaceAllAt id
        (fun child isChild result isResult => ih child isChild isResult)
        (descendAll_eq_ok.1 areResults)
      refine ⟨_, ?_, .node (fun position value => LeadTo.outside_iff outside) each elsewhere⟩
      rw [Expr.replaceAt_eq, List.map_id]
      rfl
    | true =>
      cases expr with
      | construct ty bindings =>
        have isParent : ty.typeName? = some step.parentType := by simpa [Expr.isRecordOf] using outside
        obtain ⟨results, follows, rfl⟩ := (descend_record isParent).1 descended
        obtain ⟨values, rfl, all⟩ := followBindings_eq_ok follows
        obtain ⟨news, rfl, each, elsewhere⟩ := Expr.exists_replaceAllAt
          (fun binding : String × Expr => binding.2)
          (fun binding isBinding result isResult => followed_replaces
            (ih binding.2 (List.mem_map.2 ⟨binding, isBinding, rfl⟩)) isResult) all
        refine ⟨_, ?_, .node (fun position value => LeadTo.record_iff isParent) each elsewhere⟩
        rw [Expr.replaceAt_eq]
        rfl
      | _ => simp [Expr.isRecordOf] at outside

end Refiner

end QueryProjection
