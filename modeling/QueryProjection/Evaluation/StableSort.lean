set_option autoImplicit false

namespace QueryProjection.StableSort

/-- Inserts behind every item that is not greater, into items sorted from the greatest down. -/
def insertDescending {α : Type} (order : α → α → Ordering) (item : α) : List α → List α
  | [] => [item]
  | held :: rest =>
      if order item held = .lt then held :: insertDescending order item rest
      else item :: held :: rest

def sort {α : Type} (order : α → α → Ordering) (items : List α) : List α :=
  (items.foldl (fun sorted item => insertDescending order item sorted) []).reverse

theorem insertDescending_perm {α : Type} (order : α → α → Ordering) (item : α) (items : List α) :
    (insertDescending order item items).Perm (item :: items) := by
  induction items with
  | nil => exact .refl _
  | cons held rest ih =>
      simp only [insertDescending]
      split
      · exact (ih.cons held).trans (.swap item held rest)
      · exact .refl _

theorem foldl_insertDescending_perm {α : Type} (order : α → α → Ordering)
    (items sorted : List α) :
    (items.foldl (fun held item => insertDescending order item held) sorted).Perm
      (items ++ sorted) := by
  induction items generalizing sorted with
  | nil => exact .refl _
  | cons item rest ih =>
      refine (ih _).trans ?_
      refine ((insertDescending_perm order item sorted).append_left rest).trans ?_
      exact List.perm_middle

theorem sort_perm {α : Type} (order : α → α → Ordering) (items : List α) :
    (sort order items).Perm items := by
  refine (List.reverse_perm _).trans ?_
  simpa using foldl_insertDescending_perm order items []

end QueryProjection.StableSort
