import QueryProjection.Proofs.Evaluation.Levels
import QueryProjection.Proofs.Mapping.Arrangement

set_option autoImplicit false

namespace QueryProjection

open Outcome
open Std (TransCmp)

namespace StableSort

theorem sort_congr {α : Type} {order order' : α → α → Ordering} {items : List α}
    (same : ∀ left ∈ items, ∀ right ∈ items, order left right = order' left right) :
    sort order items = sort order' items := by
  have related : List.Forall₂ (fun left right => left = right ∧ left ∈ items) items items :=
    List.forall₂_same.2 fun item isItem => ⟨rfl, isItem⟩
  have alike : ∀ left right left' right', left = left' ∧ left ∈ items → right = right' ∧ right ∈ items →
      order left right = order' left' right' := by
    rintro left right _ _ ⟨rfl, isLeft⟩ ⟨rfl, isRight⟩
    exact same left isLeft right isRight
  have sorted := (sort_related alike related).imp fun _ _ held => held.1
  rwa [List.forall₂_eq_eq_eq] at sorted

end StableSort

namespace OrderLevel

variable {rows items : List Value} {level : OrderLevel} {levels : List OrderLevel}

/-- Sorts by one level; items that may stand either way keep their order. -/
def sortItems (rows : List Value) (level : OrderLevel) (items : List Value) : List Value :=
  items.mergeSort fun left right =>
    level.direction.mayPrecede (level.keyOn rows left) (level.keyOn rows right)

/-- Sorts by the last level, then by the last but one, and so on up to the first. -/
def sortByLevels (rows : List Value) (levels : List OrderLevel) (items : List Value) : List Value :=
  levels.foldr (sortItems rows) items

/-- On every item the key is null or a value of the scalar kind. -/
def HasKind (rows items : List Value) (level : OrderLevel) (kind : ScalarKind) : Prop :=
  ∀ item ∈ items, ∃ value, level.key.valueOn rows item = .ok value ∧ value.MayBeOfKind kind

theorem sortByLevels_perm (rows : List Value) (levels : List OrderLevel) (items : List Value) :
    (sortByLevels rows levels items).Perm items := by
  induction levels with
  | nil => exact .refl _
  | cons level rest ih => exact (List.mergeSort_perm _ _).trans ih

theorem HasKind.keyOn {kind : ScalarKind} (hasKind : HasKind rows items level kind) {item : Value}
    (isItem : item ∈ items) : level.key.valueOn rows item = .ok (level.keyOn rows item) ∧
      (level.keyOn rows item).MayBeOfKind kind := by
  obtain ⟨value, isValue, mayBe⟩ := hasKind item isItem
  rw [OrderLevel.keyOn, isValue]
  exact ⟨rfl, mayBe⟩

theorem HasKind.exists_order {kind : ScalarKind} (hasKind : HasKind rows items level kind) :
    ∃ order : Value → Value → Ordering, TransCmp order ∧
      ∀ left ∈ items, ∀ right ∈ items, level.compareItems rows left right = order left right := by
  obtain ⟨order, isOrder, same⟩ := Value.exists_order kind
  have byKey : TransCmp fun left right => order (level.keyOn rows left) (level.keyOn rows right) :=
    transCmp_comap (level.keyOn rows)
  refine ⟨fun left right =>
    level.direction.directed (order (level.keyOn rows left) (level.keyOn rows right)), ?_, ?_⟩
  · cases level.direction with
    | ascending => exact byKey
    | descending => exact transCmp_swap
  · intro left isLeft right isRight
    have keys := same _ _ (hasKind.keyOn isLeft).2 (hasKind.keyOn isRight).2
    rw [compareItems, keys]

theorem sort_compareByLevels (hasKinds : ∀ level ∈ levels, ∃ kind, HasKind rows items level kind) :
    (∃ order : Value → Value → Ordering, TransCmp order ∧
      ∀ left ∈ items, ∀ right ∈ items, compareByLevels rows levels left right = order left right) ∧
    StableSort.sort (compareByLevels rows levels) items = sortByLevels rows levels items := by
  induction levels with
  | nil =>
    refine ⟨⟨fun _ _ => .eq, { eq_swap := rfl, isLE_trans := fun _ _ => rfl }, fun _ _ _ _ => rfl⟩, ?_⟩
    exact StableSort.sort_of_eq (fun _ _ => rfl) items
  | cons level rest ih =>
    obtain ⟨⟨kind, hasKind⟩, others⟩ := List.forall_mem_cons.1 hasKinds
    -- Values of several kinds are in no order, so each level is replaced by one that orders any values
    -- and agrees with it on the items.
    obtain ⟨⟨minor, isMinor, sameMinor⟩, sorted⟩ := ih others
    obtain ⟨major, isMajor, sameMajor⟩ := hasKind.exists_order
    have same : ∀ left ∈ items, ∀ right ∈ items,
        compareByLevels rows (level :: rest) left right = compareLex major minor left right := by
      intro left isLeft right isRight
      rw [compareByLevels, compareLex, compareLex, sameMajor left isLeft right isRight,
        sameMinor left isLeft right isRight]
    refine ⟨⟨compareLex major minor, inferInstance, same⟩, ?_⟩
    calc StableSort.sort (compareByLevels rows (level :: rest)) items
        = StableSort.sort (compareLex major minor) items := StableSort.sort_congr same
      _ = StableSort.sort major (StableSort.sort minor items) := StableSort.sort_compareLex items
      _ = StableSort.sort major (sortByLevels rows rest items) := by
          rw [← sorted, StableSort.sort_congr sameMinor]
      _ = (sortByLevels rows rest items).mergeSort fun left right => (major left right).isLE :=
          StableSort.sort_eq_mergeSort _
      _ = sortByLevels rows (level :: rest) items := by
          refine StableSort.mergeSort_congr fun left isLeft right isRight => ?_
          have perm := sortByLevels_perm rows rest items
          rw [SortDirection.mayPrecede_eq,
            ← sameMajor left (perm.mem_iff.1 isLeft) right (perm.mem_iff.1 isRight)]
          rfl

theorem sortStably_eq_sortByLevels
    (hasKinds : ∀ level ∈ levels, ∃ kind, HasKind rows items level kind) :
    sortStably rows levels items = sortByLevels rows levels items :=
  (sortStably_eq rows levels items).trans (sort_compareByLevels hasKinds).2

theorem ordered_of_hasKinds
    (hasKinds : ∀ level ∈ levels, ∃ kind, HasKind rows items level kind) :
    ordered rows levels items = .ok (sortByLevels rows levels items) := by
  obtain ⟨keys, keyed⟩ := mapM_exists_iff.2 fun item isItem => mapM_exists_iff.2 fun level isLevel => by
    obtain ⟨kind, hasKind⟩ := hasKinds level isLevel
    exact ⟨_, (hasKind.keyOn isItem).1⟩
  simp only [ordered, keyed, ok_bind, sortStably_eq_sortByLevels hasKinds]
  rfl

end OrderLevel

namespace Arrangement

open OrderLevel

variable {binder : Binder} {arrangement : Arrangement} {levels : List OrderLevel}
  {rows items : List Value} {scope : Evaluation.Scope} {sequence : Expr}

theorem eval_arrangeCalls (keys : OrderLevel.AreKeys levels) (skip top : Option Nat)
    (evaluates : Evaluation.eval rows scope sequence = .ok (.list items))
    (hasKinds : ∀ level ∈ levels, ∃ kind, HasKind rows items level kind) :
    Evaluation.eval rows scope (Expr.arrangeCalls levels skip top sequence) =
      .ok (.list (Evaluation.window skip top (sortByLevels rows levels items))) := by
  have yields : Evaluation.Yields rows scope sequence (.ok items) :=
    .of_eq (Evaluation.itemsIn_eq_ok.2 evaluates)
  have arranged := yields.arranged (Expr.arranges_arrangeCalls levels skip top sequence)
  have closed := Evaluation.arrangeItems_agree
    (Evaluation.sortKeys_alike rows keys.closed scope) skip top items
  rw [arrangeItems_eq, OrderLevel.arranged, ordered_of_hasKinds hasKinds, ok_bind] at closed
  exact Evaluation.itemsIn_eq_ok.1 ((arranged.trans closed).eq_ok_iff _ |>.2 rfl)

/-- Arranging a sequence sorts it stably by each key, from the last one to the first, and then keeps a
window. It fails only when a count is too large. -/
theorem applyTo_sorts (bound : binder.levels arrangement.order = .ok levels)
    (evaluates : Evaluation.eval rows scope sequence = .ok (.list items))
    (hasKinds : ∀ level ∈ levels, ∃ kind, HasKind rows items level kind) :
    ((∃ expr, arrangement.applyTo binder sequence = .ok expr) ↔
        Fits arrangement.skip arrangement.top) ∧
      (∀ expr, arrangement.applyTo binder sequence = .ok expr →
        Evaluation.eval rows scope expr = .ok (.list (Evaluation.window arrangement.skip
          arrangement.top (sortByLevels rows levels items)))) ∧
      (sortByLevels rows levels items).Perm items := by
  refine ⟨?_, ?_, sortByLevels_perm rows levels items⟩
  · simp only [applyTo_eq_ok, bound, Except.ok.injEq]
    constructor
    · rintro ⟨_, _, rfl, fits, -⟩
      exact fits
    · intro fits
      exact ⟨_, levels, rfl, fits, rfl⟩
  · intro expr applied
    obtain ⟨levels', bound', -, rfl⟩ := (applyTo_eq_ok arrangement binder sequence).1 applied
    cases bound.symm.trans bound'
    exact eval_arrangeCalls (Binder.levels_areKeys bound) _ _ evaluates hasKinds

def teamSchema : Schema :=
  .ofList [⟨"Team", .entity, none,
    [⟨"Country", .scalar .string⟩, ⟨"Rank", .nullable (.scalar .int32)⟩]⟩]

def teamBinder : Binder := ⟨teamSchema, "Team", ⟨false, none⟩⟩

def team (country : String) (rank : Value) : Value :=
  .record "Team" [("Country", .string country), ("Rank", rank)]

def fourTeams : List Value :=
  [team "Norway" (.int 2), team "Denmark" .null, team "Denmark" (.int 2), team "Finland" (.int 3)]

def secondAndThird : Arrangement :=
  ⟨[⟨"rank", .descending⟩, ⟨"country", .ascending⟩], some 1, some 2⟩

def teamLevel (direction : SortDirection) (name : String) (ty : DataType) : OrderLevel :=
  let item : Parameter := ⟨elementName, .named "Team"⟩
  ⟨direction, ⟨item, .member (.parameter item) name ty⟩⟩

def teamLevels : List OrderLevel :=
  [teamLevel .descending "Rank" (.nullable (.scalar .int32)),
    teamLevel .ascending "Country" (.scalar .string)]

theorem applyTo_sorts_secondAndThird :
    teamBinder.levels secondAndThird.order = .ok teamLevels ∧
      (∀ level ∈ teamLevels, ∃ kind, HasKind fourTeams fourTeams level kind) ∧
      Evaluation.eval fourTeams [] (.source (.collection .queryable (.named "Team"))) =
        .ok (.list fourTeams) ∧
      ∃ expr, secondAndThird.applyTo teamBinder (.source (.collection .queryable (.named "Team"))) =
          .ok expr ∧
        Evaluation.eval fourTeams [] expr = .ok (.list (Evaluation.window (some 1) (some 2)
          (sortByLevels fourTeams teamLevels fourTeams))) ∧
        Evaluation.window (some 1) (some 2) (sortByLevels fourTeams teamLevels fourTeams) =
          [team "Denmark" (.int 2), team "Norway" (.int 2)] := by
  have bound : teamBinder.levels secondAndThird.order = .ok teamLevels := by rfl
  have hasKinds : ∀ level ∈ teamLevels, ∃ kind, HasKind fourTeams fourTeams level kind := by
    refine List.forall_mem_cons.2 ⟨⟨.int32, ?_⟩, List.forall_mem_cons.2 ⟨⟨.string, ?_⟩, by simp⟩⟩
    · simp only [HasKind, fourTeams, List.forall_mem_cons]
      exact ⟨⟨_, rfl, .inr (.int32 2)⟩, ⟨_, rfl, .inl rfl⟩, ⟨_, rfl, .inr (.int32 2)⟩,
        ⟨_, rfl, .inr (.int32 3)⟩, by simp⟩
    · simp only [HasKind, fourTeams, List.forall_mem_cons]
      exact ⟨⟨_, rfl, .inr (.string _)⟩, ⟨_, rfl, .inr (.string _)⟩, ⟨_, rfl, .inr (.string _)⟩,
        ⟨_, rfl, .inr (.string _)⟩, by simp⟩
  have evaluates : Evaluation.eval fourTeams [] (.source (.collection .queryable (.named "Team"))) =
      .ok (.list fourTeams) := rfl
  obtain ⟨succeeds, results, -⟩ := applyTo_sorts bound evaluates hasKinds
  obtain ⟨expr, applied⟩ := succeeds.2 (by simp [Fits, secondAndThird])
  have result := results expr applied
  have direct : Evaluation.eval fourTeams [] expr =
      .ok (.list [team "Denmark" (.int 2), team "Norway" (.int 2)]) := by
    obtain ⟨_, bound', -, rfl⟩ := (applyTo_eq_ok _ _ _).1 applied
    cases bound.symm.trans bound'
    rfl
  refine ⟨bound, hasKinds, rfl, expr, applied, result, ?_⟩
  rw [direct] at result
  injection result with same
  injection same with same
  exact same.symm

end Arrangement

end QueryProjection
