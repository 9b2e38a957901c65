import Mathlib.Data.List.Basic
import QueryProjection.Json.Basic

set_option autoImplicit false

namespace QueryProjection.Json

variable {α β : Type} {members sorted : List (String × α)} {key name : String} {value : α}

theorem lookup_cons (name key : String) (value : α) (rest : List (String × α)) :
    ((key, value) :: rest).lookup name = if name == key then some value else rest.lookup name := by
  rw [List.lookup_cons]
  cases name == key <;> rfl

theorem lookup_of_mem (distinct : (members.map Prod.fst).Nodup)
    (isMember : (key, value) ∈ members) :
    members.lookup key = some value := by
  induction members with
  | nil => simp at isMember
  | cons first rest ih =>
    obtain ⟨new, distinct⟩ := List.nodup_cons.1 distinct
    rw [lookup_cons]
    rcases List.mem_cons.1 isMember with rfl | later
    · rw [if_pos (beq_self_eq_true key)]
    · have different : (key == first.1) = false := by
        rw [beq_eq_false_iff_ne]
        rintro rfl
        exact new (List.mem_map.2 ⟨_, later, rfl⟩)
      rw [different, if_neg Bool.false_ne_true]
      exact ih distinct later

theorem sizeOf_lt_of_mem [SizeOf α] {member : String × α}
    (isMember : member ∈ members) : sizeOf member.2 < sizeOf members := by
  have smaller := List.sizeOf_lt_of_mem isMember
  cases member
  simp only [Prod.mk.sizeOf_spec] at smaller ⊢
  omega

theorem lookup_insertMember (key name : String) (value : α) (members : List (String × α)) :
    (insertMember key value members).lookup name =
      if name == key then some value else members.lookup name := by
  induction members with
  | nil => exact lookup_cons name key value []
  | cons member rest ih =>
    obtain ⟨other, held⟩ := member
    simp only [insertMember]
    split
    next => exact lookup_cons name key value _
    next =>
      split
      next same =>
        rw [beq_iff_eq] at same
        subst same
        rw [lookup_cons, lookup_cons]
        split <;> rfl
      next different =>
        rw [lookup_cons, lookup_cons, ih]
        by_cases isOther : (name == other) = true
        · obtain rfl := beq_iff_eq.1 isOther
          have notKey : (name == key) = false := by
            rw [beq_eq_false_iff_ne]
            rintro rfl
            exact different isOther
          rw [notKey, if_pos isOther, if_pos isOther, if_neg Bool.false_ne_true]
        · rw [Bool.not_eq_true] at isOther
          rw [isOther, if_neg Bool.false_ne_true, if_neg Bool.false_ne_true]

def insertMembers (added sorted : List (String × α)) : List (String × α) :=
  added.foldl (fun sorted member => insertMember member.1 member.2 sorted) sorted

theorem sortMembers_eq_insertMembers (members : List (String × α)) :
    sortMembers members = insertMembers members [] := rfl

theorem insertMembers_cons (member : String × α) (added sorted : List (String × α)) :
    insertMembers (member :: added) sorted =
      insertMembers added (insertMember member.1 member.2 sorted) := rfl

theorem lookup_insertMembers (distinct : (members.map Prod.fst).Nodup) (name : String) :
    (insertMembers members sorted).lookup name = (members.lookup name).or (sorted.lookup name) := by
  induction members generalizing sorted with
  | nil => rfl
  | cons member rest ih =>
    obtain ⟨new, distinct⟩ := List.nodup_cons.1 distinct
    rw [insertMembers_cons, ih distinct, lookup_insertMember, lookup_cons]
    split
    next same =>
      obtain rfl := beq_iff_eq.1 same
      have absent : rest.lookup member.1 = none := by
        rw [List.lookup_eq_none_iff]
        intro other isOther
        rw [bne_iff_ne]
        intro same
        exact new (same ▸ List.mem_map_of_mem isOther)
      rw [absent]
      rfl
    next => rfl

theorem lookup_sortMembers (distinct : (members.map Prod.fst).Nodup) (name : String) :
    (sortMembers members).lookup name = members.lookup name := by
  rw [sortMembers_eq_insertMembers, lookup_insertMembers distinct, List.lookup_nil, Option.or_none]

theorem insertMember_map (f : α → β) (key : String) (value : α) (members : List (String × α)) :
    insertMember key (f value) (members.map (Prod.map id f)) =
      (insertMember key value members).map (Prod.map id f) := by
  induction members with
  | nil => rfl
  | cons member rest ih =>
    simp only [List.map_cons, insertMember, Prod.map, id] at ih ⊢
    split_ifs
    · rfl
    · rfl
    · rw [ih]
      rfl

theorem insertMembers_map (f : α → β) (added sorted : List (String × α)) :
    insertMembers (added.map (Prod.map id f)) (sorted.map (Prod.map id f)) =
      (insertMembers added sorted).map (Prod.map id f) := by
  induction added generalizing sorted with
  | nil => rfl
  | cons member rest ih =>
    rw [insertMembers_cons, ← ih, ← insertMember_map]
    rfl

theorem sortMembers_map (f : α → β) (members : List (String × α)) :
    sortMembers (members.map (Prod.map id f)) = (sortMembers members).map (Prod.map id f) :=
  insertMembers_map f members []

def InKeyOrder (members : List (String × α)) : Prop :=
  members.Pairwise fun first second => first.1 < second.1

theorem mem_of_mem_insertMember {member : String × α}
    (isMember : member ∈ insertMember key value members) :
    member = (key, value) ∨ member ∈ members := by
  induction members with
  | nil => exact .inl (List.mem_singleton.1 isMember)
  | cons held rest ih =>
    simp only [insertMember] at isMember
    split at isMember
    next => exact List.mem_cons.1 isMember
    next =>
      split at isMember
      next => exact (List.mem_cons.1 isMember).imp_right (List.mem_cons_of_mem _)
      next =>
        rcases List.mem_cons.1 isMember with rfl | later
        · exact .inr List.mem_cons_self
        · exact (ih later).imp_right (List.mem_cons_of_mem _)

theorem mem_of_mem_insertMembers {member : String × α}
    (isMember : member ∈ insertMembers members sorted) : member ∈ members ∨ member ∈ sorted := by
  induction members generalizing sorted with
  | nil => exact .inr isMember
  | cons first rest ih =>
    rcases ih isMember with later | held
    · exact .inl (List.mem_cons_of_mem _ later)
    · rcases mem_of_mem_insertMember held with rfl | held
      · exact .inl List.mem_cons_self
      · exact .inr held

theorem mem_of_mem_sortMembers {member : String × α} (isMember : member ∈ sortMembers members) :
    member ∈ members :=
  (mem_of_mem_insertMembers isMember).resolve_right List.not_mem_nil

theorem InKeyOrder.insertMember (inOrder : InKeyOrder members) (key : String) (value : α) :
    InKeyOrder (insertMember key value members) := by
  induction members with
  | nil => exact List.pairwise_singleton _ _
  | cons member rest ih =>
    obtain ⟨other, held⟩ := member
    obtain ⟨before, inOrderRest⟩ := List.pairwise_cons.1 inOrder
    simp only [Json.insertMember]
    split
    next less =>
      refine List.pairwise_cons.2 ⟨fun later isLater => ?_, inOrder⟩
      rcases List.mem_cons.1 isLater with rfl | isLater
      · exact less
      · exact String.lt_trans less (before later isLater)
    next notLess =>
      split
      next same =>
        obtain rfl := beq_iff_eq.1 same
        exact List.pairwise_cons.2 ⟨before, inOrderRest⟩
      next different =>
        refine List.pairwise_cons.2 ⟨fun later isLater => ?_, ih inOrderRest⟩
        rcases mem_of_mem_insertMember isLater with rfl | isLater
        · have distinct : other ≠ key := fun same => different (beq_iff_eq.2 same.symm)
          exact Std.lt_of_le_of_ne (String.not_lt.1 notLess) distinct
        · exact before later isLater

theorem InKeyOrder.insertMembers (inOrder : InKeyOrder sorted) (added : List (String × α)) :
    InKeyOrder (insertMembers added sorted) := by
  induction added generalizing sorted with
  | nil => exact inOrder
  | cons member rest ih => exact ih (inOrder.insertMember _ _)

theorem sortMembers_inKeyOrder (members : List (String × α)) :
    InKeyOrder (sortMembers members) := by
  have empty : InKeyOrder ([] : List (String × α)) := .nil
  exact empty.insertMembers members

theorem InKeyOrder.insertMember_last (inOrder : InKeyOrder (members ++ [(key, value)])) :
    Json.insertMember key value members = members ++ [(key, value)] := by
  induction members with
  | nil => rfl
  | cons member rest ih =>
    obtain ⟨other, held⟩ := member
    obtain ⟨before, inOrderRest⟩ := List.pairwise_cons.1 inOrder
    have less : other < key := before (key, value) (by simp)
    have different : (key == other) = false := by
      rw [beq_eq_false_iff_ne]
      rintro rfl
      exact String.lt_irrefl key less
    rw [Json.insertMember, if_neg (String.lt_asymm less), different, if_neg Bool.false_ne_true,
      ih inOrderRest]
    rfl

theorem InKeyOrder.insertMembers_last {added : List (String × α)}
    (inOrder : InKeyOrder (sorted ++ added)) : Json.insertMembers added sorted = sorted ++ added := by
  induction added generalizing sorted with
  | nil => exact (List.append_nil sorted).symm
  | cons member rest ih =>
    rw [← List.singleton_append, ← List.append_assoc] at inOrder ⊢
    have first : InKeyOrder (sorted ++ [(member.1, member.2)]) :=
      List.Pairwise.sublist (List.sublist_append_left _ _) inOrder
    rw [← ih inOrder, ← first.insertMember_last]
    rfl

theorem InKeyOrder.sortMembers_eq (inOrder : InKeyOrder members) :
    sortMembers members = members :=
  InKeyOrder.insertMembers_last inOrder

end QueryProjection.Json
