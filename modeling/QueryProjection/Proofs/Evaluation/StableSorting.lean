import Mathlib.Data.List.Sort
import Mathlib.Order.Compare
import QueryProjection.Evaluation.StableSort

set_option autoImplicit false

namespace QueryProjection.StableSort

open Std (TransCmp ReflCmp OrientedCmp)

variable {α : Type} {order major minor : α → α → Ordering} {items middle sorted sorted' : List α}
  {item other : α}

theorem sort_eq_insertionSort (order : α → α → Ordering) (items : List α) :
    sort order items = (items.reverse.insertionSort fun left right => order left right ≠ .lt).reverse := by
  have inserts (item : α) (sorted : List α) : insertDescending order item sorted =
      sorted.orderedInsert (fun left right => order left right ≠ .lt) item := by
    induction sorted with
    | nil => rfl
    | cons held rest ih =>
      rw [insertDescending, List.orderedInsert, ih]
      split <;> simp_all
  simp only [sort, inserts, List.insertionSort, List.foldr_reverse]

def tied (order : α → α → Ordering) (item : α) (items : List α) : List α :=
  items.filter fun other => order item other == .eq

structure StablySorts (order : α → α → Ordering) (items sorted : List α) : Prop where
  perm : sorted.Perm items
  ordered : sorted.Pairwise fun left right => (order left right).isLE
  stable : ∀ item, tied order item sorted = tied order item items

theorem tied_cons_of_eq (equal : order item other = .eq) (items : List α) :
    tied order item (other :: items) = other :: tied order item items := by
  simp [tied, equal]

theorem tied_cons_of_ne (differ : order item other ≠ .eq) (items : List α) :
    tied order item (other :: items) = tied order item items := by
  simp [tied, differ]

theorem eq_of_isLE_of_isLE [TransCmp order] (first : (order item other).isLE)
    (second : (order other item).isLE) : order item other = .eq := by
  rw [(OrientedCmp.eq_swap : order other item = _)] at second
  cases compared : order item other <;> simp_all

theorem StablySorts.eq_of_ordered [TransCmp order]
    (inOrder : items.Pairwise fun left right => (order left right).isLE)
    (sorts : StablySorts order items sorted) : sorted = items := by
  induction items generalizing sorted with
  | nil => exact sorts.perm.eq_nil
  | cons head rest ih =>
    obtain _ | ⟨head', rest'⟩ := sorted
    · simpa using sorts.perm.length_eq
    · obtain ⟨before, restInOrder⟩ := List.pairwise_cons.1 inOrder
      obtain ⟨before', rest'InOrder⟩ := List.pairwise_cons.1 sorts.ordered
      have first : (order head head').isLE := by
        rcases List.mem_cons.1 (sorts.perm.mem_iff.1 List.mem_cons_self) with rfl | later
        · simp [ReflCmp.compare_self]
        · exact before head' later
      have second : (order head' head).isLE := by
        rcases List.mem_cons.1 (sorts.perm.mem_iff.2 List.mem_cons_self) with rfl | later
        · simp [ReflCmp.compare_self]
        · exact before' head later
      -- Both heads are tied, and each is the first of the items that are tied with it.
      have stableHead := sorts.stable head
      rw [tied_cons_of_eq (eq_of_isLE_of_isLE first second), tied_cons_of_eq ReflCmp.compare_self]
        at stableHead
      obtain ⟨rfl, -⟩ := List.cons.inj stableHead
      have stableRest : ∀ item, tied order item rest' = tied order item rest := by
        intro item
        have stable := sorts.stable item
        by_cases equal : order item head' = .eq
        · rw [tied_cons_of_eq equal, tied_cons_of_eq equal] at stable
          exact (List.cons.inj stable).2
        · rwa [tied_cons_of_ne equal, tied_cons_of_ne equal] at stable
      rw [ih restInOrder ⟨sorts.perm.cons_inv, rest'InOrder, stableRest⟩]

theorem StablySorts.unique [TransCmp order] (first : StablySorts order items sorted)
    (second : StablySorts order items sorted') : sorted = sorted' :=
  eq_of_ordered second.ordered ⟨first.perm.trans second.perm.symm, first.ordered,
    fun item => (first.stable item).trans (second.stable item).symm⟩

theorem tied_compareLex (item : α) (items : List α) :
    tied (compareLex major minor) item items = tied major item (tied minor item items) := by
  have both : ∀ other, (compareLex major minor item other == .eq) =
      (major item other == .eq && minor item other == .eq) := by
    intro other
    simp only [compareLex]
    cases major item other <;> rfl
  simp only [tied, List.filter_filter, both]

theorem tied_comm (item : α) (items : List α) :
    tied major item (tied minor item items) = tied minor item (tied major item items) := by
  simp only [tied, List.filter_filter, Bool.and_comm]

theorem StablySorts.lex [ReflCmp major] (first : StablySorts minor items middle)
    (second : StablySorts major middle sorted) :
    StablySorts (compareLex major minor) items sorted where
  perm := second.perm.trans first.perm
  ordered := by
    rw [List.pairwise_iff_forall_sublist]
    intro left right inSorted
    have major_ := List.pairwise_iff_forall_sublist.1 second.ordered inSorted
    cases compared : major left right with
    | lt => simp [compareLex, compared]
    | gt => simp [compared] at major_
    | eq =>
      -- Tied items of the sorted list come from the middle one, in the order they have there.
      have inTied : [left, right].Sublist (tied major left middle) := by
        rw [← second.stable left]
        simpa [tied, compared, ReflCmp.compare_self] using
          inSorted.filter fun other => major left other == .eq
      have inMiddle := inTied.trans List.filter_sublist
      have minor_ := List.pairwise_iff_forall_sublist.1 first.ordered inMiddle
      simpa [compareLex, compared] using minor_
  stable := by
    intro item
    calc tied (compareLex major minor) item sorted
        = tied minor item (tied major item sorted) := by rw [tied_compareLex, tied_comm]
      _ = tied minor item (tied major item middle) := by rw [second.stable]
      _ = tied major item (tied minor item middle) := tied_comm ..
      _ = tied major item (tied minor item items) := by rw [first.stable]
      _ = tied (compareLex major minor) item items := (tied_compareLex ..).symm

theorem mergeSort_congr {le le' : α → α → Bool}
    (agree : ∀ left ∈ items, ∀ right ∈ items, le left right = le' left right) :
    items.mergeSort le = items.mergeSort le' := by
  simpa using @List.map_mergeSort _ _ le le' id items agree

theorem mergeSort_stablySorts [TransCmp order] (items : List α) :
    StablySorts order items (items.mergeSort fun left right => (order left right).isLE) := by
  have trans_ : ∀ a b c, (order a b).isLE = true → (order b c).isLE = true →
      (order a c).isLE = true := fun _ _ _ => TransCmp.isLE_trans
  have total : ∀ a b, ((order a b).isLE || (order b a).isLE) = true := by
    intro a b
    rw [(OrientedCmp.eq_swap : order b a = _)]
    cases order a b <;> rfl
  have perm := List.mergeSort_perm items fun left right => (order left right).isLE
  refine ⟨perm, List.pairwise_mergeSort trans_ total items, fun item => ?_⟩
  have inOrder : (tied order item items).Pairwise fun left right => (order left right).isLE := by
    refine List.Pairwise.imp_of_mem ?_ (List.pairwise_of_forall fun _ _ => trivial)
    intro left right isLeft isRight _
    have tiedLeft : order item left = .eq := by simpa using (List.mem_filter.1 isLeft).2
    have tiedRight : order item right = .eq := by simpa using (List.mem_filter.1 isRight).2
    rw [← TransCmp.congr_left tiedLeft, tiedRight]
    rfl
  -- The tied items are in order as they stand, so a merge sort keeps them as a sublist.
  have kept := (List.sublist_mergeSort trans_ total inOrder List.filter_sublist).filter
    fun other => order item other == .eq
  rw [tied, List.filter_filter] at kept
  simp only [Bool.and_self] at kept
  exact (kept.eq_of_length (perm.filter _).length_eq.symm).symm

theorem insertDescending_ordered [TransCmp order] (item : α)
    (descends : sorted.Pairwise fun left right => (order right left).isLE) :
    (insertDescending order item sorted).Pairwise fun left right => (order right left).isLE := by
  induction sorted with
  | nil => simp [insertDescending]
  | cons held rest ih =>
    obtain ⟨below, restDescends⟩ := List.pairwise_cons.1 descends
    rw [insertDescending]
    split
    next less =>
      refine List.pairwise_cons.2 ⟨?_, ih restDescends⟩
      intro other isOther
      rcases List.mem_cons.1 ((insertDescending_perm order item rest).mem_iff.1 isOther) with rfl | old
      · simp [less]
      · exact below other old
    next notLess =>
      have heldBelow : (order held item).isLE := by
        rw [(OrientedCmp.eq_swap : order held item = _)]
        cases compared : order item held <;> simp_all
      refine List.pairwise_cons.2 ⟨List.forall_mem_cons.2 ⟨heldBelow, ?_⟩, descends⟩
      exact fun other isOther => TransCmp.isLE_trans (below other isOther) heldBelow

theorem tied_insertDescending [TransCmp order] (item other : α) (sorted : List α) :
    tied order other (insertDescending order item sorted) = tied order other (item :: sorted) := by
  induction sorted with
  | nil => rfl
  | cons held rest ih =>
    rw [insertDescending]
    split
    next less =>
      by_cases equal : order other held = .eq
      · -- The new item goes behind a greater one, with which it is not tied.
        have apart : order other item ≠ .eq := by
          intro equal'
          rw [← TransCmp.congr_left equal', equal] at less
          contradiction
        rw [tied_cons_of_eq equal, ih, tied_cons_of_ne apart, tied_cons_of_ne apart,
          tied_cons_of_eq equal]
      · rw [tied_cons_of_ne equal, ih]
        simp only [tied, List.filter_cons, beq_eq_false_iff_ne.2 equal, Bool.false_eq_true, if_false]
    next => rfl

theorem insertDescending_stablySorts [TransCmp order] (item : α)
    (sorts : StablySorts order items sorted.reverse) :
    StablySorts order (items ++ [item]) (insertDescending order item sorted).reverse where
  perm := by
    have inserted := (List.reverse_perm _).trans (insertDescending_perm order item sorted)
    have held := (List.reverse_perm sorted).symm.trans sorts.perm
    exact inserted.trans ((held.cons item).trans (List.perm_append_singleton item items).symm)
  ordered := List.pairwise_reverse.2
    (insertDescending_ordered item (List.pairwise_reverse.1 sorts.ordered))
  stable other := by
    have stable := sorts.stable other
    simp only [tied, List.filter_reverse, List.filter_append] at stable ⊢
    have inserted : tied order other (insertDescending order item sorted) =
        tied order other (item :: sorted) := tied_insertDescending item other sorted
    simp only [tied] at inserted
    rw [inserted, List.filter_cons, ← stable]
    split <;> simp_all

theorem sort_stablySorts [TransCmp order] (items : List α) :
    StablySorts order items (sort order items) := by
  have inserts : ∀ (later : List α) {items sorted : List α},
      StablySorts order items sorted.reverse → StablySorts order (items ++ later)
        (later.foldl (fun sorted item => insertDescending order item sorted) sorted).reverse := by
    intro later
    induction later with
    | nil =>
      intro items sorted sorts
      simpa using sorts
    | cons item rest ih =>
      intro items sorted sorts
      simpa using ih (insertDescending_stablySorts item sorts)
  have start : StablySorts order ([] : List α) ([] : List α).reverse := ⟨.refl _, .nil, fun _ => rfl⟩
  exact inserts items start

theorem sort_eq_mergeSort [TransCmp order] (items : List α) :
    sort order items = items.mergeSort fun left right => (order left right).isLE :=
  (sort_stablySorts items).unique (mergeSort_stablySorts items)

theorem sort_compareLex [TransCmp major] [TransCmp minor] (items : List α) :
    sort (compareLex major minor) items = sort major (sort minor items) :=
  (sort_stablySorts items).unique ((sort_stablySorts items).lex (sort_stablySorts _))

end QueryProjection.StableSort
