import QueryProjection.Proofs.Evaluation.SideBySide
import QueryProjection.Proofs.Evaluation.StableSorting
import QueryProjection.Proofs.Value.Preorder

set_option autoImplicit false

namespace QueryProjection

open Outcome

namespace SortDirection

/-- Whether a value may stand before another. Nulls come first among ascending values, and last among
descending ones. -/
def mayPrecede : SortDirection → Value → Value → Bool
  | .ascending, left, right =>
      left.isNull || (!right.isNull && Value.compare? left right != some .gt)
  | .descending, left, right =>
      right.isNull || (!left.isNull && Value.compare? left right != some .lt)

def directed (direction : SortDirection) (order : Ordering) : Ordering :=
  if direction == .descending then order.swap else order

theorem mayPrecede_eq (direction : SortDirection) (left right : Value) :
    direction.mayPrecede left right = (direction.directed (left.sortOrder right)).isLE := by
  have present : ∀ value : Value, value ≠ .null → value.isNull = false := by
    intro value
    cases value <;> simp [Value.isNull]
  -- Nulls come first whatever they are compared with, so they are taken apart from the rest.
  by_cases isLeft : left = .null
  · subst isLeft
    by_cases isRight : right = .null
    · cases direction <;> simp [mayPrecede, directed, isRight, Value.sortOrder, Value.isNull]
    · cases direction <;> simp [mayPrecede, directed, Value.sortOrder, Value.isNull]
  · by_cases isRight : right = .null
    · cases direction <;> simp [mayPrecede, directed, isRight, Value.sortOrder, Value.isNull]
    · rw [Value.sortOrder_of_present isLeft isRight]
      cases direction <;>
        simp only [mayPrecede, directed, present left isLeft, present right isRight] <;>
        obtain compared | ⟨_ | _ | _, compared⟩ :=
          Option.eq_none_or_eq_some (Value.compare? left right) <;>
        simp [compared]

theorem directed_swap (direction : SortDirection) (order : Ordering) :
    direction.directed order.swap = (direction.directed order).swap := by
  cases direction <;> rfl

end SortDirection

namespace OrderLevel

variable {rows items : List Value} {level : OrderLevel} {levels : List OrderLevel}

def keyOn (rows : List Value) (level : OrderLevel) (item : Value) : Value :=
  match level.key.valueOn rows item with
  | .ok value => value
  | .error _ => .null

/-- Whether an item may stand before another. The first level on which they do not tie decides. -/
def mayPrecede (rows : List Value) : List OrderLevel → Value → Value → Bool
  | [], _, _ => true
  | level :: rest, left, right =>
      level.direction.mayPrecede (level.keyOn rows left) (level.keyOn rows right) &&
        (!level.direction.mayPrecede (level.keyOn rows right) (level.keyOn rows left) ||
          mayPrecede rows rest left right)

/-- Inserts the items one after the other, each behind the last one that may stand before it. -/
def sortStably (rows : List Value) (levels : List OrderLevel) (items : List Value) : List Value :=
  (items.reverse.insertionSort fun left right => mayPrecede rows levels right left).reverse

/-- The items in the order of their keys, where every item has all of them. -/
def ordered (rows : List Value) (levels : List OrderLevel) (items : List Value) :
    Outcome (List Value) := do
  let _ ← items.mapM fun item => levels.mapM fun level => level.key.valueOn rows item
  return sortStably rows levels items

def arranged (rows : List Value) (levels : List OrderLevel) (skip top : Option Nat)
    (items : List Value) : Outcome (List Value) := do
  return Evaluation.window skip top (← ordered rows levels items)

def compareItems (rows : List Value) (level : OrderLevel) (left right : Value) : Ordering :=
  level.direction.directed ((level.keyOn rows left).sortOrder (level.keyOn rows right))

def compareByLevels (rows : List Value) : List OrderLevel → Value → Value → Ordering
  | [] => fun _ _ => .eq
  | level :: rest => compareLex (level.compareItems rows) (compareByLevels rows rest)

theorem mayPrecede_eq (rows : List Value) (levels : List OrderLevel) (left right : Value) :
    mayPrecede rows levels right left = (compareByLevels rows levels left right != .lt) := by
  induction levels with
  | nil => rfl
  | cons level rest ih =>
    have forward : level.direction.mayPrecede (level.keyOn rows left) (level.keyOn rows right) =
        (level.compareItems rows left right).isLE := SortDirection.mayPrecede_eq ..
    have back : level.direction.mayPrecede (level.keyOn rows right) (level.keyOn rows left) =
        (level.compareItems rows left right).swap.isLE := by
      rw [SortDirection.mayPrecede_eq, Value.sortOrder_swap, SortDirection.directed_swap, compareItems]
    simp only [mayPrecede, forward, back, ih, compareByLevels, compareLex]
    cases level.compareItems rows left right <;> simp

theorem sortStably_eq (rows : List Value) (levels : List OrderLevel) (items : List Value) :
    sortStably rows levels items = StableSort.sort (compareByLevels rows levels) items := by
  simp only [sortStably, StableSort.sort_eq_insertionSort, mayPrecede_eq, bne_iff_ne]

theorem keysOf_eq (rows : List Value) (levels : List OrderLevel) (item : Value) :
    Evaluation.keysOf (levels.map (sortKey rows [])) item =
      levels.mapM fun level => level.key.valueOn rows item := by
  induction levels with
  | nil => rfl
  | cons level rest ih =>
    simp only [List.map_cons, Evaluation.keysOf, ih, List.mapM_cons]
    rfl

theorem keys_eq_of_ok {item : Value} {values : List Value}
    (computed : (levels.mapM fun level => level.key.valueOn rows item) = .ok values) :
    values = levels.map fun level => level.keyOn rows item := by
  induction levels generalizing values with
  | nil => exact (pure_eq_ok.1 computed).symm
  | cons level rest ih =>
    simp only [List.mapM_cons, bind_eq_ok, pure_eq_ok] at computed
    obtain ⟨value, isValue, others, later, rfl⟩ := computed
    simp only [List.map_cons, ih later, keyOn, isValue]

theorem keyItems_eq (rows : List Value) (levels : List OrderLevel) (items : List Value) :
    Evaluation.keyItems (levels.map (sortKey rows [])) items = (do
      let _ ← items.mapM fun item => levels.mapM fun level => level.key.valueOn rows item
      return items.map fun item => (levels.map fun level => level.keyOn rows item, item)) := by
  induction items with
  | nil => rfl
  | cons item rest ih =>
    simp only [Evaluation.keyItems, keysOf_eq, ih, List.mapM_cons, bind_assoc, pure_bind]
    refine bind_congr_of_ok fun values computed => ?_
    cases keys_eq_of_ok computed
    rfl

theorem compareKeys_eq (rows : List Value) (levels : List OrderLevel) (left right : Value) :
    Evaluation.compareKeys (levels.map (sortKey rows []))
      (levels.map fun level => level.keyOn rows left)
      (levels.map fun level => level.keyOn rows right) = compareByLevels rows levels left right := by
  induction levels with
  | nil => rfl
  | cons level rest ih =>
    simp only [List.map_cons, Evaluation.compareKeys, ih]
    rfl

theorem orderItems_eq (rows : List Value) (levels : List OrderLevel) (items : List Value) :
    Evaluation.orderItems (levels.map (sortKey rows [])) items = ordered rows levels items := by
  let keyed (item : Value) : List Value × Value := (levels.map fun level => level.keyOn rows item, item)
  have related : List.Forall₂ (fun (entry : List Value × Value) item => entry = keyed item)
      (items.map keyed) items := by
    rw [List.forall₂_map_left_iff, List.forall₂_same]
    exact fun _ _ => rfl
  have alike : ∀ (entry entry' : List Value × Value) (item item' : Value),
      entry = keyed item → entry' = keyed item' →
        Evaluation.compareKeys (levels.map (sortKey rows [])) entry.1 entry'.1 =
          compareByLevels rows levels item item' := by
    rintro _ _ item item' rfl rfl
    exact compareKeys_eq rows levels item item'
  have sorted := StableSort.sort_related alike related
  have items_ := sorted.imp fun (entry : List Value × Value) item same =>
    show entry.2 = item from congrArg Prod.snd same
  rw [← List.forall₂_map_left_iff, List.forall₂_eq_eq_eq, ← sortStably_eq] at items_
  simp only [Evaluation.orderItems, keyItems_eq, ordered, bind_assoc, pure_bind]
  refine bind_congr_of_ok fun _ _ => congrArg Except.ok items_

theorem arrangeItems_eq (rows : List Value) (levels : List OrderLevel) (skip top : Option Nat)
    (items : List Value) : Evaluation.arrangeItems (levels.map (sortKey rows [])) skip top items =
      arranged rows levels skip top items := by
  simp only [Evaluation.arrangeItems, orderItems_eq, arranged]

end OrderLevel

end QueryProjection
