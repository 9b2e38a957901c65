import Mathlib.Data.List.Perm.Subperm
import QueryProjection.Proofs.Schema.Members

set_option autoImplicit false

namespace QueryProjection.Schema

open Outcome

variable {schema : Schema} {typeName name : String} {member other : MemberDecl}
  {members declared : List MemberDecl}

theorem findMember_congr (members : List MemberDecl) {name name' : String}
    (same : Text.sameName name name' = true) :
    findMember members name = findMember members name' := by
  rw [Text.sameName_iff] at same
  simp [findMember, Text.sameName, same]

theorem sameName_of_findMember {members : List MemberDecl} {name : String} {member : MemberDecl}
    (found : findMember members name = some member) :
    Text.sameName member.name name = true := by
  simpa using List.find?_some found

theorem resolve_congr (schema : Schema) (typeName : String) {name name' : String}
    (same : Text.sameName name name' = true) :
    schema.member? typeName name = schema.member? typeName name' := by
  simp only [member?, findMember_congr _ same]

theorem member?_of_resolve {schema : Schema} {typeName name : String} {member : MemberDecl}
    (resolved : schema.resolve typeName name = .ok member) :
    schema.member? typeName name = some member := by
  unfold resolve at resolved
  split at resolved
  next found => simp_all
  next => simp at resolved

theorem resolve_of_member? {schema : Schema} {typeName name : String} {member : MemberDecl}
    (found : schema.member? typeName name = some member) :
    schema.resolve typeName name = .ok member := by
  simp [resolve, found]

theorem sameName_of_resolve {schema : Schema} {typeName name : String} {member : MemberDecl}
    (resolved : schema.resolve typeName name = .ok member) :
    Text.sameName member.name name = true := by
  have found := member?_of_resolve resolved
  obtain ⟨typeDecl, -, declared⟩ := List.exists_of_findSome?_eq_some found
  exact sameName_of_findMember declared

theorem resolve_own_name {schema : Schema} {typeName name : String} {member : MemberDecl}
    (resolved : schema.resolve typeName name = .ok member) :
    schema.resolve typeName member.name = .ok member := by
  apply resolve_of_member?
  rw [resolve_congr schema typeName (sameName_of_resolve resolved)]
  exact member?_of_resolve resolved

theorem eq_of_resolve {schema : Schema} {typeName name name' : String} {member member' : MemberDecl}
    (resolved : schema.resolve typeName name = .ok member)
    (resolved' : schema.resolve typeName name' = .ok member')
    (same : Text.sameName name name' = true) : member = member' := by
  have found := member?_of_resolve resolved
  rw [resolve_congr schema typeName same, member?_of_resolve resolved'] at found
  exact (Option.some.inj found).symm

/-- No type declares two members under one name. -/
def DeclaresOnce (schema : Schema) : Prop :=
  ∀ typeDecl ∈ schema.types, Unique typeDecl.members

instance (schema : Schema) : Decidable schema.DeclaresOnce :=
  inferInstanceAs (Decidable (∀ typeDecl ∈ schema.types,
    (typeDecl.members.map fun member => Text.foldCase member.name).Nodup))

theorem mem_of_mem_overlay (isHeld : other ∈ overlay members member) :
    other ∈ members ∨ other = member := by
  induction members with
  | nil => exact .inr (by simpa [overlay] using isHeld)
  | cons first rest ih =>
    simp only [overlay] at isHeld
    split at isHeld
    next =>
      rcases List.mem_cons.1 isHeld with rfl | later
      · exact .inr rfl
      · exact .inl (List.mem_cons_of_mem _ later)
    next =>
      rcases List.mem_cons.1 isHeld with rfl | later
      · exact .inl List.mem_cons_self
      · exact (ih later).imp_left (List.mem_cons_of_mem _)

theorem mem_of_mem_overlays (isHeld : other ∈ declared.foldl overlay members) :
    other ∈ members ∨ other ∈ declared := by
  induction declared generalizing members with
  | nil => exact .inl isHeld
  | cons first rest ih =>
    rcases ih isHeld with earlier | later
    · rcases mem_of_mem_overlay earlier with held | rfl
      · exact .inl held
      · exact .inr List.mem_cons_self
    · exact .inr (List.mem_cons_of_mem _ later)

theorem mem_overlay (members : List MemberDecl) (member : MemberDecl) :
    member ∈ overlay members member := by
  induction members with
  | nil => simp [overlay]
  | cons held rest ih =>
    simp only [overlay]
    split
    next => exact List.mem_cons_self
    next => exact List.mem_cons_of_mem _ ih

theorem mem_overlay_of_other (held : other ∈ members)
    (different : ¬ Text.sameName other.name member.name = true) : other ∈ overlay members member := by
  induction members with
  | nil => simp at held
  | cons first rest ih =>
    simp only [overlay]
    rcases List.mem_cons.1 held with rfl | later
    · simp [different]
    · split
      next => exact List.mem_cons_of_mem _ later
      next => exact List.mem_cons_of_mem _ (ih later)

theorem mem_overlays_of_other (held : other ∈ members)
    (different : ∀ member ∈ declared, ¬ Text.sameName other.name member.name = true) :
    other ∈ declared.foldl overlay members := by
  induction declared generalizing members with
  | nil => exact held
  | cons first rest ih =>
    obtain ⟨notFirst, notLater⟩ := List.forall_mem_cons.1 different
    exact ih (mem_overlay_of_other held notFirst) notLater

theorem mem_overlays (unique : Unique declared) (isDeclared : member ∈ declared)
    (members : List MemberDecl) : member ∈ declared.foldl overlay members := by
  induction declared generalizing members with
  | nil => simp at isDeclared
  | cons first rest ih =>
    obtain ⟨new, uniqueRest⟩ := List.nodup_cons.1 unique
    rw [List.foldl_cons]
    rcases List.mem_cons.1 isDeclared with rfl | later
    · refine mem_overlays_of_other (mem_overlay members member) ?_
      intro other isOther same
      exact new (List.mem_map.2 ⟨other, isOther, ((Text.sameName_iff _ _).1 same).symm⟩)
    · exact ih uniqueRest later _

theorem baseChain_declared (schema : Schema) (fuel : Nat) (seen : List String) (typeName : String) :
    ∀ typeDecl ∈ (schema.baseChain fuel seen typeName).1, typeDecl ∈ schema.types := by
  induction fuel generalizing seen typeName with
  | zero => simp [baseChain]
  | succ fuel ih =>
    simp only [baseChain]
    split
    next => simp
    next =>
      split
      next => simp
      next typeDecl found =>
        have isDeclared : typeDecl ∈ schema.types := List.mem_of_find?_eq_some found
        split
        next => simpa using isDeclared
        next base _ => exact List.forall_mem_cons.2 ⟨isDeclared, ih (typeName :: seen) base⟩

theorem length_le_of_registered {names : List String} (apart : names.Nodup)
    (known : names ⊆ schema.types.map TypeDecl.name) : names.length ≤ schema.types.length := by
  simpa using (apart.subperm known).length_le

theorem baseChain_congr {fuel fuel' : Nat} {seen : List String} (apart : seen.Nodup)
    (known : seen ⊆ schema.types.map TypeDecl.name)
    (enough : schema.types.length < fuel + seen.length)
    (enough' : schema.types.length < fuel' + seen.length) :
    schema.baseChain fuel seen typeName = schema.baseChain fuel' seen typeName := by
  induction fuel generalizing fuel' seen typeName with
  | zero =>
    have most := length_le_of_registered apart known
    omega
  | succ fuel ih =>
    cases fuel' with
    | zero =>
      have most := length_le_of_registered apart known
      omega
    | succ fuel' =>
      simp only [baseChain]
      split
      next => rfl
      next new =>
        split
        next => rfl
        next typeDecl found =>
          split
          next => rfl
          next base _ =>
            have isRegistered : typeName ∈ schema.types.map TypeDecl.name :=
              List.mem_map.2 ⟨typeDecl, List.mem_of_find?_eq_some found,
                by simpa using List.find?_some found⟩
            -- With the type among those that have been seen, both fuels last for the chain of its
            -- base.
            have apartLater : (typeName :: seen).Nodup :=
              List.nodup_cons.2 ⟨by simpa using new, apart⟩
            have knownLater : typeName :: seen ⊆ schema.types.map TypeDecl.name :=
              List.cons_subset.2 ⟨isRegistered, known⟩
            have same : schema.baseChain fuel (typeName :: seen) base =
                schema.baseChain fuel' (typeName :: seen) base :=
              ih apartLater knownLater (by simp; omega) (by simp; omega)
            rw [same]

theorem baseChain_eq_chainOf {fuel : Nat} (enough : schema.types.length < fuel) :
    schema.baseChain fuel [] typeName = schema.chainOf typeName :=
  baseChain_congr List.nodup_nil (List.nil_subset _) enough (Nat.lt_succ_self _)

theorem mem_layers_of_findSome? {chain : List TypeDecl}
    (once : ∀ typeDecl ∈ chain, Unique typeDecl.members)
    (found : chain.findSome? (fun typeDecl => findMember typeDecl.members name) = some member) :
    member ∈ chain.reverse.foldl (fun all typeDecl => typeDecl.members.foldl overlay all) [] := by
  rw [List.foldl_reverse]
  induction chain with
  | nil => simp at found
  | cons typeDecl bases ih =>
    obtain ⟨onceHere, onceBases⟩ := List.forall_mem_cons.1 once
    rw [List.foldr_cons]
    rw [List.findSome?_cons] at found
    split at found
    next declared isDeclared =>
      cases found
      exact mem_overlays onceHere (List.mem_of_find?_eq_some isDeclared) _
    next absent =>
      -- The more derived type does not declare the name, so it lays nothing over the member.
      refine mem_overlays_of_other (ih onceBases found) ?_
      intro other isOther same
      obtain ⟨base, -, isFound⟩ := List.exists_of_findSome?_eq_some found
      have asked : Text.sameName member.name name = true := by
        simpa using List.find?_some isFound
      rw [Text.sameName_comm] at same
      have isNamed := List.find?_eq_none.1 absent other isOther
      exact isNamed (Text.sameName_trans same asked)

theorem declared_of_mem_layers {chain : List TypeDecl}
    (isHeld : member ∈ chain.foldr (fun typeDecl all => typeDecl.members.foldl overlay all) []) :
    ∃ typeDecl ∈ chain, member ∈ typeDecl.members := by
  induction chain with
  | nil => simp at isHeld
  | cons typeDecl bases ih =>
    rcases mem_of_mem_overlays isHeld with below | here
    · obtain ⟨base, isBase, isMember⟩ := ih below
      exact ⟨base, List.mem_cons_of_mem _ isBase, isMember⟩
    · exact ⟨typeDecl, List.mem_cons_self, here⟩

theorem chainOf_of_ancestry {chain : List TypeDecl} (isChain : schema.ancestry typeName = .ok chain) :
    schema.chainOf typeName = (chain, .root) := by
  unfold ancestry at isChain
  split at isChain
  next ends => cases isChain; exact ends
  next => simp at isChain
  next => simp at isChain

theorem resolve_of_lists (listed : schema.Lists typeName member) :
    ∃ found, schema.resolve typeName member.name = .ok found := by
  obtain ⟨all, isAll, isMember⟩ := listed
  simp only [Schema.members, bind_eq_ok, pure_eq_ok] at isAll
  obtain ⟨chain, isChain, rfl⟩ := isAll
  rw [List.foldl_reverse] at isMember
  obtain ⟨typeDecl, onChain, isDeclared⟩ := declared_of_mem_layers isMember
  have found : (schema.member? typeName member.name).isSome := by
    rw [member?, chainOf_of_ancestry isChain, List.isSome_findSome?, List.any_eq_true]
    refine ⟨typeDecl, onChain, ?_⟩
    rw [findMember, List.isSome_find?, List.any_eq_true]
    exact ⟨member, isDeclared, Text.sameName_refl _⟩
  obtain ⟨first, isFirst⟩ := Option.isSome_iff_exists.1 found
  exact ⟨first, resolve_of_member? isFirst⟩

theorem get_of_resolve (resolved : schema.resolve typeName name = .ok member) :
    ∃ typeDecl, schema.get typeName = .ok typeDecl := by
  have found := member?_of_resolve resolved
  cases registered : schema.find? typeName with
  | none => simp [member?, chainOf, baseChain, registered] at found
  | some typeDecl => exact ⟨typeDecl, by simp [get, registered]⟩

theorem lists_of_resolve (once : schema.DeclaresOnce) {all : List MemberDecl}
    (listed : schema.members typeName = .ok all)
    (resolved : schema.resolve typeName name = .ok member) : member ∈ all := by
  simp only [Schema.members, bind_eq_ok, pure_eq_ok] at listed
  obtain ⟨chain, isChain, rfl⟩ := listed
  have found := member?_of_resolve resolved
  rw [member?, chainOf_of_ancestry isChain] at found
  refine mem_layers_of_findSome? (fun typeDecl onChain => once typeDecl ?_) found
  have declared := baseChain_declared schema (schema.types.length + 1) [] typeName
  rw [← chainOf, chainOf_of_ancestry isChain] at declared
  exact declared typeDecl onChain

theorem listsAs_of_once (once : schema.DeclaresOnce) (found : schema.member? typeName name = some member) :
    schema.ListsAs typeName member := fun _ listed =>
  ⟨member, lists_of_resolve once listed (resolve_of_member? found), Text.sameName_refl _, rfl⟩

end QueryProjection.Schema
