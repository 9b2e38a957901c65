import QueryProjection.Filter.Arrangement
import QueryProjection.Proofs.Evaluation.Renaming

set_option autoImplicit false

namespace QueryProjection

namespace StableSort

variable {α : Type}

theorem foldl_insertDescending_of_eq {order : α → α → Ordering} (equal : ∀ a b, order a b = .eq)
    (items sorted : List α) :
    items.foldl (fun held item => insertDescending order item held) sorted =
      items.reverse ++ sorted := by
  induction items generalizing sorted with
  | nil => rfl
  | cons item rest ih =>
    have first : insertDescending order item sorted = item :: sorted := by
      cases sorted with
      | nil => rfl
      | cons held later => simp [insertDescending, equal]
    rw [List.foldl_cons, first, ih]
    simp

theorem sort_of_eq {order : α → α → Ordering} (equal : ∀ a b, order a b = .eq) (items : List α) :
    sort order items = items := by
  rw [sort, foldl_insertDescending_of_eq equal]
  simp

end StableSort

namespace Evaluation

open Outcome

/-- The items for which the predicate is true, where it has a value on every item. -/
def itemsWhere (predicate : Value → Outcome Value) (items : List Value) : Outcome (List Value) := do
  let _ ← items.mapM predicate
  return items.filter fun item => predicate item matches .ok (.bool true)

theorem keepWhere_eq (predicate : Value → Outcome Value) (items : List Value) :
    keepWhere predicate items = itemsWhere predicate items := by
  induction items with
  | nil => rfl
  | cons item rest ih =>
    simp only [keepWhere, ih, itemsWhere, List.mapM_cons, bind_assoc, pure_bind]
    cases verdict : predicate item with
    | error cause => rfl
    | ok value =>
      simp only [ok_bind, List.filter_cons, verdict]
      refine bind_congr fun _ => ?_
      cases value with
      | bool flag => cases flag <;> rfl
      | _ => rfl

theorem itemsWhere_length_le {predicate : Value → Outcome Value} {items kept : List Value}
    (computed : itemsWhere predicate items = .ok kept) : kept.length ≤ items.length := by
  obtain ⟨_, -, computed⟩ := bind_eq_ok.1 computed
  rw [← pure_eq_ok.1 computed]
  exact List.length_filter_le ..

theorem itemsWhere_related {relation : Value → Value → Prop} {left right : Value → Outcome Value}
    {items items' : List Value} (agree : AgreeOn relation left right)
    (related : List.Forall₂ relation items items') :
    Related (List.Forall₂ relation) (itemsWhere left items) (itemsWhere right items') := by
  rw [← keepWhere_eq, ← keepWhere_eq]
  exact (keepWhere_follows agree.followsOn related).related trivial

theorem itemsWhere_agree {left right : Value → Outcome Value} (same : SameOn left right)
    (items : List Value) : Agree (itemsWhere left items) (itemsWhere right items) := by
  have related := itemsWhere_related same.agreeOn (List.forall₂_refl items)
  rwa [List.forall₂_eq_eq_eq] at related

theorem mapItems_eq (selector : Value → Outcome Value) (items : List Value) :
    mapItems selector items = items.mapM selector := by
  induction items with
  | nil => rfl
  | cons item rest ih => simp only [mapItems, ih, List.mapM_cons]

def orderItems (levels : List SortKey) (items : List Value) : Outcome (List Value) := do
  let keyed ← keyItems levels items
  let sorted := StableSort.sort (fun left right => compareKeys levels left.1 right.1) keyed
  return sorted.map fun entry => entry.2

/-- Drops the skipped items, then takes at most the top ones. -/
def window {α : Type} (skip top : Option Nat) (items : List α) : List α :=
  let left := items.drop (skip.getD 0)
  match top with
  | some limit => left.take limit
  | none => left

theorem keyItems_nil (items : List Value) :
    keyItems [] items = .ok (items.map fun item => ([], item)) := by
  induction items with
  | nil => rfl
  | cons item rest ih =>
    simp only [keyItems, keysOf, ih]
    rfl

theorem orderItems_nil (items : List Value) : orderItems [] items = .ok items := by
  have equal : ∀ left right : List Value × Value, compareKeys [] left.1 right.1 = .eq :=
    fun _ _ => rfl
  simp only [orderItems, keyItems_nil, ok_bind]
  rw [StableSort.sort_of_eq equal]
  simp [pure, Except.pure, Function.comp_def]

theorem keyItems_items {levels : List SortKey} {items : List Value}
    {keyed : List (List Value × Value)} (computed : keyItems levels items = .ok keyed) :
    keyed.map (fun entry => entry.2) = items := by
  induction items generalizing keyed with
  | nil =>
    simp only [keyItems, Except.ok.injEq] at computed
    simp [← computed]
  | cons item rest ih =>
    simp only [keyItems, bind_eq_ok, pure_eq_ok] at computed
    obtain ⟨values, -, others, later, rfl⟩ := computed
    simp [ih later]

theorem orderItems_perm {levels : List SortKey} {items ordered : List Value}
    (sorted : orderItems levels items = .ok ordered) : ordered.Perm items := by
  simp only [orderItems, bind_eq_ok, pure_eq_ok] at sorted
  obtain ⟨keyed, computed, rfl⟩ := sorted
  have perm := (StableSort.sort_perm
    (fun left right => compareKeys levels left.1 right.1) keyed).map (fun entry => entry.2)
  rwa [keyItems_items computed] at perm

theorem mapItems_eq_ok {selector : Value → Outcome Value} {items values : List Value} :
    mapItems selector items = .ok values ↔
      List.Forall₂ (fun item value => selector item = .ok value) items values := by
  rw [mapItems_eq, mapM_eq_ok]

theorem mapItems_exists {selector : Value → Outcome Value} {suits : Value → Prop} {items : List Value}
    (each : ∀ item ∈ items, ∃ value, selector item = .ok value ∧ suits value) :
    ∃ values, mapItems selector items = .ok values ∧ ∀ value ∈ values, suits value := by
  induction items with
  | nil => exact ⟨[], rfl, by simp⟩
  | cons item rest ih =>
    obtain ⟨⟨value, isValue, suitable⟩, later⟩ := List.forall_mem_cons.1 each
    obtain ⟨values, areValues, suitables⟩ := ih later
    refine ⟨value :: values, ?_, List.forall_mem_cons.2 ⟨suitable, suitables⟩⟩
    simp only [mapItems, isValue, areValues, ok_bind]
    rfl

def itemsIn (rows : List Value) (scope : Scope) (expr : Expr) : Outcome (List Value) := do
  itemsOf expr (← eval rows scope expr)

theorem itemsIn_eq_ok {rows : List Value} {scope : Scope} {expr : Expr} {items : List Value} :
    itemsIn rows scope expr = .ok items ↔ eval rows scope expr = .ok (.list items) := by
  unfold itemsIn
  rw [bind_eq_ok]
  constructor
  · intro found
    obtain ⟨value, evaluated, isList⟩ := found
    unfold itemsOf at isList
    split at isList
    next =>
      cases isList
      exact evaluated
    next => simp [fault] at isList
  · intro evaluated
    exact ⟨_, evaluated, rfl⟩

theorem eval_call_eq_ok {rows : List Value} {scope : Scope} {method : SequenceMethod}
    {arguments : List Expr} {ty : DataType} {value : Value}
    (evaluates : eval rows scope (.call method arguments ty) = .ok value) :
    ∃ items, value = .list items := by
  simp only [eval] at evaluates
  split at evaluates
  next =>
    -- An order and its refinements are evaluated together, as one sort.
    simp only [bind_eq_ok, sortItems, pure_eq_ok] at evaluates
    obtain ⟨_, _, _, _, rfl⟩ := evaluates
    exact ⟨_, rfl⟩
  next =>
    cases arguments with
    | nil => cases evaluates
    | cons sequence rest =>
      rw [evalCall] at evaluates
      obtain ⟨held, -, evaluates⟩ := bind_eq_ok.1 evaluates
      obtain ⟨items, -, evaluates⟩ := bind_eq_ok.1 evaluates
      cases method with
      | filter | select =>
        dsimp only at evaluates
        split at evaluates
        next =>
          obtain ⟨kept, -, isValue⟩ := bind_eq_ok.1 evaluates
          exact ⟨kept, (pure_eq_ok.1 isValue).symm⟩
        next => cases evaluates
      | skip | take =>
        dsimp only at evaluates
        split at evaluates
        next =>
          obtain ⟨counted, -, evaluates⟩ := bind_eq_ok.1 evaluates
          obtain ⟨count, -, isValue⟩ := bind_eq_ok.1 evaluates
          exact ⟨_, (pure_eq_ok.1 isValue).symm⟩
        next => cases evaluates
      | orderBy | orderByDescending | thenBy | thenByDescending | toList | toArray | asQueryable =>
        exact ⟨items, (pure_eq_ok.1 evaluates).symm⟩

def Yields (rows : List Value) (scope : Scope) (expr : Expr) (items : Outcome (List Value)) : Prop :=
  Agree (itemsIn rows scope expr) items

variable {rows : List Value} {scope : Scope} {inner : Expr} {items : Outcome (List Value)}

theorem itemsFor_agree (method : SequenceMethod) (whole : Expr) (value : Value) :
    Agree (itemsFor method value) (itemsOf whole value) := by
  cases value with
  | list items => exact .refl _
  | null | bool _ | int _ | float _ | decimal _ | string _ | uuid _ | dateTime _ | date _ | time _
  | enumeration _ | record _ _ => exact .failed _ _

namespace Yields

theorem itself (rows : List Value) (scope : Scope) (expr : Expr) :
    Yields rows scope expr (itemsIn rows scope expr) :=
  Agree.refl _

theorem source (rows : List Value) (scope : Scope) (ty : DataType) :
    Yields rows scope (.source ty) (.ok rows) :=
  Agree.refl _

theorem congr {items' : Outcome (List Value)} (yields : Yields rows scope inner items)
    (same : Agree items items') : Yields rows scope inner items' :=
  yields.trans same

theorem call {method : SequenceMethod} {rest : List Expr} {ty : DataType}
    {next : List Value → Outcome (List Value)} (unordered : method.isOrdering = false)
    (runs : evalCall rows scope method (inner :: rest) = (do
      let items ← itemsFor method (← eval rows scope inner)
      return .list (← next items)))
    (yields : Yields rows scope inner items) :
    Yields rows scope (.call method (inner :: rest) ty) (items >>= next) := by
  refine Agree.trans ?_ (Agree.bind yields fun values => .refl _)
  unfold itemsIn
  simp only [eval, unordered, Bool.false_eq_true, if_false, runs]
  cases eval rows scope inner with
  | error cause => exact .failed _ _
  | ok value =>
    simp only [ok_bind]
    refine Agree.trans ?_ (Agree.bind (itemsFor_agree method inner value) fun values => .refl _)
    cases itemsFor method value with
    | error cause => exact .failed _ _
    | ok values =>
      simp only [ok_bind]
      cases next values with
      | error cause => exact .failed _ _
      | ok kept => exact .ok rfl

theorem filter (yields : Yields rows scope inner items) (param : Parameter) (body : Expr)
    (ty : DataType) :
    Yields rows scope (.call .filter [inner, .lambda param body] ty)
      (items >>= itemsWhere fun item => eval rows ((param.name, item) :: scope) body) :=
  call rfl (by simp only [evalCall, keepWhere_eq]) yields

theorem select (yields : Yields rows scope inner items) (param : Parameter) (body : Expr)
    (ty : DataType) :
    Yields rows scope (.call .select [inner, .lambda param body] ty)
      (items >>= mapItems fun item => eval rows ((param.name, item) :: scope) body) :=
  call rfl (by simp only [evalCall]) yields

theorem countOf_count (method : SequenceMethod) (number : Nat) :
    countOf method (.int number) = .ok number := by
  have natural : ¬ (number : Int) < 0 := by omega
  simp [countOf, Value.asInt?, natural]

theorem skip (yields : Yields rows scope inner items) (number : Nat) (ty : DataType) :
    Yields rows scope (.call .skip [inner, .count number] ty)
      (items >>= fun values => .ok (values.drop number)) := by
  refine call rfl ?_ yields
  simp only [evalCall, eval, Expr.count, countOf_count, ok_bind]

theorem take (yields : Yields rows scope inner items) (number : Nat) (ty : DataType) :
    Yields rows scope (.call .take [inner, .count number] ty)
      (items >>= fun values => .ok (values.take number)) := by
  refine call rfl ?_ yields
  simp only [evalCall, eval, Expr.count, countOf_count, ok_bind]

theorem conversion {method : SequenceMethod}
    (converts : method ∈ [SequenceMethod.toList, .toArray, .asQueryable])
    (yields : Yields rows scope inner items) (ty : DataType) :
    Yields rows scope (.call method [inner] ty) items := by
  have kept : Yields rows scope (.call method [inner] ty) (items >>= .ok) := by
    simp only [List.mem_cons, List.not_mem_nil, or_false] at converts
    rcases converts with rfl | rfl | rfl <;> exact call rfl (by simp only [evalCall, ok_bind]) yields
  rwa [bind_ok] at kept

theorem sequence {expr : Expr} (yields : Yields rows [] expr items) :
    Agree (Evaluation.sequence rows expr) items :=
  yields

end Yields

end Evaluation

end QueryProjection
