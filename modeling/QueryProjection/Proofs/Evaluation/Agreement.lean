import QueryProjection.Evaluation.Interpreter
import Mathlib.Data.List.Forall2
import QueryProjection.Proofs.Outcome

set_option autoImplicit false

namespace QueryProjection.Evaluation

open Outcome

def AgreeOn (relation : Value → Value → Prop) (left right : Value → Outcome Value) : Prop :=
  ∀ item item', relation item item' → Agree (left item) (right item')

structure SortKey.AgreeOn (relation : Value → Value → Prop) (left right : SortKey) : Prop where
  direction : left.descending = right.descending
  key : Evaluation.AgreeOn relation left.key right.key

section Follows

variable {exact : Prop} {relation : Value → Value → Prop} {items items' : List Value}

def FollowsOn (exact : Prop) (relation : Value → Value → Prop) (left right : Value → Outcome Value) :
    Prop :=
  ∀ item item', relation item item' → Follows exact Eq (left item) (right item')

structure SortKey.FollowsOn (exact : Prop) (relation : Value → Value → Prop) (left right : SortKey) :
    Prop where
  direction : left.descending = right.descending
  key : Evaluation.FollowsOn exact relation left.key right.key

theorem AgreeOn.followsOn {left right : Value → Outcome Value} (agree : AgreeOn relation left right) :
    FollowsOn exact relation left right :=
  fun item item' isItem => (agree item item' isItem).follows

theorem SortKey.AgreeOn.followsOn (exact : Prop) {left right : SortKey}
    (agree : SortKey.AgreeOn relation left right) : SortKey.FollowsOn exact relation left right :=
  ⟨agree.direction, agree.key.followsOn⟩

theorem keepWhere_follows {left right : Value → Outcome Value}
    (follows : FollowsOn exact relation left right) (related : List.Forall₂ relation items items') :
    Follows exact (List.Forall₂ relation) (keepWhere left items) (keepWhere right items') := by
  induction related with
  | nil => exact .ok .nil
  | @cons item item' _ _ isItem _ ih =>
    simp only [keepWhere]
    refine (follows item item' isItem).bind fun verdict verdict' same => ?_
    subst same
    refine ih.bind fun kept kept' isKept => ?_
    split
    next => exact .ok (.cons isItem isKept)
    next => exact .ok isKept

theorem mapItems_follows {left right : Value → Outcome Value}
    (follows : FollowsOn exact relation left right) (related : List.Forall₂ relation items items') :
    Follows exact Eq (mapItems left items) (mapItems right items') := by
  induction related with
  | nil => exact .refl _
  | @cons item item' _ _ isItem _ ih =>
    simp only [mapItems]
    refine (follows item item' isItem).bind_same fun value => ?_
    exact ih.bind_same fun values => .refl _

variable {left right : List SortKey}

theorem keysOf_follows (follow : List.Forall₂ (SortKey.FollowsOn exact relation) left right)
    {item item' : Value} (isItem : relation item item') :
    Follows exact Eq (keysOf left item) (keysOf right item') := by
  induction follow with
  | nil => exact .refl _
  | cons first _ ih =>
    simp only [keysOf]
    refine (first.key item item' isItem).bind_same fun value => ?_
    exact ih.bind_same fun values => .refl _

def KeyedAlike (relation : Value → Value → Prop) (entry entry' : List Value × Value) : Prop :=
  entry.1 = entry'.1 ∧ relation entry.2 entry'.2

theorem forall₂_keyedAlike_eq : List.Forall₂ (KeyedAlike Eq) = Eq := by
  have same : KeyedAlike Eq = Eq := by
    funext entry entry'
    exact propext ⟨fun same => Prod.ext same.1 same.2, fun equal => equal ▸ ⟨rfl, rfl⟩⟩
  rw [same, List.forall₂_eq_eq_eq]

theorem keyItems_follows (follow : List.Forall₂ (SortKey.FollowsOn exact relation) left right)
    (related : List.Forall₂ relation items items') :
    Follows exact (List.Forall₂ (KeyedAlike relation)) (keyItems left items) (keyItems right items') := by
  induction related with
  | nil => exact .ok .nil
  | cons isItem _ ih =>
    simp only [keyItems]
    refine (keysOf_follows follow isItem).bind fun values values' same => ?_
    exact ih.bind fun keyed keyed' areKeyed => .ok (.cons ⟨same, isItem⟩ areKeyed)

theorem compareKeys_follows (follow : List.Forall₂ (SortKey.FollowsOn exact relation) left right)
    (keys keys' : List Value) : compareKeys left keys keys' = compareKeys right keys keys' := by
  induction follow generalizing keys keys' with
  | nil => rfl
  | cons first _ ih =>
    cases keys with
    | nil => rfl
    | cons key keys =>
      cases keys' with
      | nil => rfl
      | cons key' keys' => simp only [compareKeys, first.direction, ih]

theorem sortItems_follows (follow : List.Forall₂ (SortKey.FollowsOn exact Eq) left right)
    (items : List Value) : Follows exact Eq (sortItems left items) (sortItems right items) := by
  have keyed := keyItems_follows follow (List.forall₂_refl items)
  rw [forall₂_keyedAlike_eq] at keyed
  simp only [sortItems, compareKeys_follows follow]
  exact keyed.bind_same fun entries => .refl _

end Follows

section Related

variable {relation : Value → Value → Prop} {items items' : List Value}

variable {left right : List SortKey} (agree : List.Forall₂ (SortKey.AgreeOn relation) left right)

include agree

theorem keyItems_related (related : List.Forall₂ relation items items') :
    Related (List.Forall₂ (KeyedAlike relation)) (keyItems left items) (keyItems right items') :=
  (keyItems_follows (agree.imp fun _ _ level => level.followsOn True) related).related trivial

theorem compareKeys_related (keys keys' : List Value) :
    compareKeys left keys keys' = compareKeys right keys keys' :=
  compareKeys_follows (agree.imp fun _ _ level => level.followsOn True) keys keys'

end Related

abbrev SameOn (left right : Value → Outcome Value) : Prop :=
  ∀ item, Agree (left item) (right item)

theorem SameOn.agreeOn {left right : Value → Outcome Value} (same : SameOn left right) :
    AgreeOn Eq left right := by
  intro item item' equal
  exact equal ▸ same item

abbrev KeysAlike (left right : List SortKey) : Prop := List.Forall₂ (SortKey.AgreeOn Eq) left right

theorem keyItems_agree {left right : List SortKey} (alike : KeysAlike left right)
    (items : List Value) : Agree (keyItems left items) (keyItems right items) := by
  have related := keyItems_related alike (List.forall₂_refl items)
  rwa [forall₂_keyedAlike_eq] at related

theorem readMember_agree (value : Value) (name : String) (whole whole' : Expr) :
    Agree (readMember value name whole) (readMember value name whole') := by
  cases value with
  | record typeName fields => exact .refl _
  | null => exact .failed _ _
  | _ => exact .refl _

section Operators

variable {exact : Prop} {rows rows' : List Value} {scope scope' : Scope}

theorem eval_binary_follows (operator : BinaryOperator) {left left' right right' : Expr}
    (first : Follows exact Eq (eval rows scope left) (eval rows' scope' left'))
    (second : Follows exact Eq (eval rows scope right) (eval rows' scope' right')) :
    Follows exact Eq (eval rows scope (.binary operator left right))
      (eval rows' scope' (.binary operator left' right')) := by
  have ordinary (operator : BinaryOperator) :
      Follows exact Eq (do
        let value ← eval rows scope left
        return Value.bool (compareBy operator value (← eval rows scope right))) (do
        let value ← eval rows' scope' left'
        return Value.bool (compareBy operator value (← eval rows' scope' right'))) :=
    first.bind_same fun value => second.bind_same fun value' => .refl _
  cases operator with
  | andAlso =>
    simp only [eval]
    refine first.bind_same fun value => (Follows.refl _).bind_same fun holds => ?_
    cases holds with
    | true => exact second.bind_same fun value => .refl _
    | false => exact .refl _
  | orElse =>
    simp only [eval]
    refine first.bind_same fun value => (Follows.refl _).bind_same fun holds => ?_
    cases holds with
    | true => exact .refl _
    | false => exact second.bind_same fun value => .refl _
  | eq | ne | gt | ge | lt | le =>
    simp only [eval]
    exact ordinary _

theorem eval_conditional_follows (ty ty' : DataType) {test test' whenTrue whenTrue' whenFalse whenFalse' : Expr}
    (first : Follows exact Eq (eval rows scope test) (eval rows' scope' test'))
    (second : Follows exact Eq (eval rows scope whenTrue) (eval rows' scope' whenTrue'))
    (third : Follows exact Eq (eval rows scope whenFalse) (eval rows' scope' whenFalse')) :
    Follows exact Eq (eval rows scope (.conditional test whenTrue whenFalse ty))
      (eval rows' scope' (.conditional test' whenTrue' whenFalse' ty')) := by
  simp only [eval]
  refine first.bind_same fun value => (Follows.refl _).bind_same fun holds => ?_
  cases holds with
  | true => exact second
  | false => exact third

theorem eval_binary_agree (operator : BinaryOperator) {left left' right right' : Expr}
    (first : Agree (eval rows scope left) (eval rows' scope' left'))
    (second : Agree (eval rows scope right) (eval rows' scope' right')) :
    Agree (eval rows scope (.binary operator left right))
      (eval rows' scope' (.binary operator left' right')) :=
  (eval_binary_follows operator first.follows second.follows).related trivial

theorem eval_conditional_agree (ty ty' : DataType) {test test' whenTrue whenTrue' whenFalse whenFalse' : Expr}
    (first : Agree (eval rows scope test) (eval rows' scope' test'))
    (second : Agree (eval rows scope whenTrue) (eval rows' scope' whenTrue'))
    (third : Agree (eval rows scope whenFalse) (eval rows' scope' whenFalse')) :
    Agree (eval rows scope (.conditional test whenTrue whenFalse ty))
      (eval rows' scope' (.conditional test' whenTrue' whenFalse' ty')) :=
  (eval_conditional_follows ty ty' first.follows second.follows third.follows).related trivial

end Operators

end QueryProjection.Evaluation
