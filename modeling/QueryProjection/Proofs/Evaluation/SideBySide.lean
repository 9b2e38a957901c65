import QueryProjection.Proofs.Evaluation.Arrangement

set_option autoImplicit false

namespace QueryProjection

open Outcome

namespace StableSort

variable {α β : Type} {relation : α → β → Prop} {order : α → α → Ordering}
  {order' : β → β → Ordering}

theorem insertDescending_related
    (same : ∀ a b a' b', relation a a' → relation b b' → order a b = order' a' b')
    {item : α} {item' : β} (isItem : relation item item') {items : List α} {items' : List β}
    (related : List.Forall₂ relation items items') :
    List.Forall₂ relation (insertDescending order item items)
      (insertDescending order' item' items') := by
  induction related with
  | nil => exact .cons isItem .nil
  | @cons held held' rest rest' isHeld later ih =>
    simp only [insertDescending, same item held item' held' isItem isHeld]
    split
    next => exact .cons isHeld ih
    next => exact .cons isItem (.cons isHeld later)

theorem sort_related
    (same : ∀ a b a' b', relation a a' → relation b b' → order a b = order' a' b')
    {items : List α} {items' : List β} (related : List.Forall₂ relation items items') :
    List.Forall₂ relation (sort order items) (sort order' items') := by
  have inserts (items : List α) (items' : List β) (sorted : List α) (sorted' : List β)
      (related : List.Forall₂ relation items items')
      (start : List.Forall₂ relation sorted sorted') :
      List.Forall₂ relation
        (items.foldl (fun sorted item => insertDescending order item sorted) sorted)
        (items'.foldl (fun sorted item => insertDescending order' item sorted) sorted') := by
    induction related generalizing sorted sorted' with
    | nil => exact start
    | cons isItem _ ih => exact ih _ _ (insertDescending_related same isItem start)
  exact List.rel_reverse (inserts items items' [] [] related .nil)

end StableSort

namespace Evaluation

variable {relation : Value → Value → Prop} {items items' : List Value} {left right : List SortKey}

theorem orderItems_related (agree : List.Forall₂ (SortKey.AgreeOn relation) left right)
    (related : List.Forall₂ relation items items') :
    Related (List.Forall₂ relation) (orderItems left items) (orderItems right items') := by
  refine Related.bind (keyItems_related agree related) fun keyed keyed' areKeyed => .ok ?_
  have same : ∀ a b a' b', KeyedAlike relation a a' → KeyedAlike relation b b' →
      compareKeys left a.1 b.1 = compareKeys right a'.1 b'.1 := by
    intro a b a' b' alike alike'
    rw [alike.1, alike'.1]
    exact compareKeys_related agree a'.1 b'.1
  have sorted := StableSort.sort_related same areKeyed
  rw [List.forall₂_map_left_iff, List.forall₂_map_right_iff]
  exact sorted.imp fun _ _ alike => alike.2

theorem window_related (skip top : Option Nat) (related : List.Forall₂ relation items items') :
    List.Forall₂ relation (window skip top items) (window skip top items') := by
  have dropped := List.forall₂_drop (skip.getD 0) related
  cases top with
  | none => exact dropped
  | some limit => exact List.forall₂_take limit dropped

theorem arrangeItems_related (skip top : Option Nat)
    (agree : List.Forall₂ (SortKey.AgreeOn relation) left right)
    (related : List.Forall₂ relation items items') :
    Related (List.Forall₂ relation) (arrangeItems left skip top items)
      (arrangeItems right skip top items') :=
  Related.bind (orderItems_related agree related) fun _ _ ordered =>
    .ok (window_related skip top ordered)

end Evaluation

end QueryProjection
