import Mathlib.Data.List.Nodup
import QueryProjection.Proofs.Outcome
import QueryProjection.Schema.Basic

set_option autoImplicit false

namespace QueryProjection.Schema

open Outcome

/-- Members are told apart by their names without case. -/
def Unique (members : List MemberDecl) : Prop :=
  (members.map fun member => Text.foldCase member.name).Nodup

theorem Unique.names_nodup {members : List MemberDecl} (unique : Unique members) :
    (members.map MemberDecl.name).Nodup := by
  apply List.Nodup.of_map Text.foldCase
  rw [List.map_map]
  exact unique

theorem Unique.eq_of_sameName {members : List MemberDecl} {left right : MemberDecl}
    (unique : Unique members) (isLeft : left ∈ members) (isRight : right ∈ members)
    (same : Text.sameName left.name right.name = true) : left = right :=
  List.inj_on_of_nodup_map unique isLeft isRight ((Text.sameName_iff _ _).1 same)

theorem overlay_names (members : List MemberDecl) (member : MemberDecl) :
    let key := fun member : MemberDecl => Text.foldCase member.name
    (overlay members member).map key =
      if key member ∈ members.map key then members.map key else members.map key ++ [key member] := by
  induction members with
  | nil => simp [overlay]
  | cons held rest ih =>
    simp only [overlay, List.map_cons, List.mem_cons] at ih ⊢
    by_cases same : Text.sameName held.name member.name = true
    · have folded := (Text.sameName_iff _ _).1 same
      simp [same, folded]
    · have folded : Text.foldCase member.name ≠ Text.foldCase held.name := by
        intro equal
        exact same ((Text.sameName_iff _ _).2 equal.symm)
      simp only [same, folded, Bool.false_eq_true, false_or, if_false, List.map_cons, ih]
      split <;> rfl

theorem overlay_unique {members : List MemberDecl} (unique : Unique members)
    (member : MemberDecl) : Unique (overlay members member) := by
  have names := overlay_names members member
  unfold Unique at unique ⊢
  simp only at names
  rw [names]
  split
  next => exact unique
  next new =>
    rw [List.nodup_append]
    refine ⟨unique, by simp, ?_⟩
    intro name isHeld other isNew
    rw [List.mem_singleton.1 isNew]
    exact fun same => new (same ▸ isHeld)

theorem members_unique {schema : Schema} {typeName : String} {all : List MemberDecl}
    (listed : schema.members typeName = .ok all) : Unique all := by
  simp only [members, bind_eq_ok, pure_eq_ok] at listed
  obtain ⟨chain, -, rfl⟩ := listed
  -- Every declaration on the chain is laid over those of the bases.
  have overlays (declared start : List MemberDecl) (unique : Unique start) :
      Unique (declared.foldl overlay start) := by
    induction declared generalizing start with
    | nil => exact unique
    | cons member rest ih => exact ih _ (overlay_unique unique member)
  have layers (types : List TypeDecl) (start : List MemberDecl) (unique : Unique start) :
      Unique (types.foldl (fun all typeDecl => typeDecl.members.foldl overlay all) start) := by
    induction types generalizing start with
    | nil => exact unique
    | cons typeDecl rest ih => exact ih _ (overlays typeDecl.members start unique)
  exact layers _ [] List.nodup_nil

def Lists (schema : Schema) (typeName : String) (member : MemberDecl) : Prop :=
  ∃ all, schema.members typeName = .ok all ∧ member ∈ all

/-- The list has a member of that name, of the same type up to null. -/
def ListsAs (schema : Schema) (typeName : String) (member : MemberDecl) : Prop :=
  ∀ all, schema.members typeName = .ok all → ∃ listed ∈ all,
    Text.sameName listed.name member.name = true ∧ listed.ty.nonNull = member.ty.nonNull

theorem Lists.eq_of_sameName {schema : Schema} {typeName : String} {left right : MemberDecl}
    (isLeft : schema.Lists typeName left) (isRight : schema.Lists typeName right)
    (same : Text.sameName left.name right.name = true) : left = right := by
  obtain ⟨all, listed, isLeft⟩ := isLeft
  obtain ⟨all', listed', isRight⟩ := isRight
  cases listed.symm.trans listed'
  exact (members_unique listed).eq_of_sameName isLeft isRight same

end QueryProjection.Schema
