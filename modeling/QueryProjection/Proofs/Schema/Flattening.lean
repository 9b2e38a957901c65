import QueryProjection.Proofs.Schema.Bases

set_option autoImplicit false

namespace QueryProjection.Schema

open Outcome

variable {schema : Schema} {typeName name : String} {member other : MemberDecl}
  {members declared all : List MemberDecl} {typeDecl : TypeDecl} {chain : List TypeDecl}

def keysOf (members : List MemberDecl) : List (List Char) :=
  members.map fun member => Text.foldCase member.name

def declares (typeDecl : TypeDecl) (name : String) : Bool :=
  typeDecl.members.any fun member => Text.sameName member.name name

def declarations (chain : List TypeDecl) : List MemberDecl :=
  chain.reverse.flatMap TypeDecl.members

theorem mem_keysOf : Text.foldCase name ∈ keysOf members ↔
    ∃ member ∈ members, Text.sameName member.name name = true := by
  simp [keysOf, Text.sameName_iff]

theorem keysOf_append (members declared : List MemberDecl) :
    keysOf (members ++ declared) = keysOf members ++ keysOf declared :=
  List.map_append

theorem keysOf_overlay (members : List MemberDecl) (member : MemberDecl) :
    keysOf (overlay members member) =
      if Text.foldCase member.name ∈ keysOf members then keysOf members
      else keysOf members ++ [Text.foldCase member.name] :=
  overlay_names members member

theorem eraseDups_of_nodup {α : Type} [BEq α] [LawfulBEq α] {items : List α}
    (apart : items.Nodup) : items.eraseDups = items := by
  induction items with
  | nil => rfl
  | cons item rest ih =>
    obtain ⟨new, apart⟩ := List.nodup_cons.1 apart
    have others : rest.filter (fun other => !other == item) = rest := by
      refine List.filter_eq_self.2 fun other isOther => ?_
      have different : other ≠ item := fun same => new (same ▸ isOther)
      simpa using different
    rw [List.eraseDups_cons, others, ih apart]

theorem keysOf_overlays (unique : Unique members) (declared : List MemberDecl) :
    keysOf (declared.foldl overlay members) = (keysOf members ++ keysOf declared).eraseDups := by
  induction declared generalizing members with
  | nil =>
    have apart : (keysOf members).Nodup := unique
    rw [List.foldl_nil, keysOf, keysOf, List.map_nil, List.append_nil]
    exact (eraseDups_of_nodup apart).symm
  | cons first rest ih =>
    have split : keysOf (first :: rest) = Text.foldCase first.name :: keysOf rest := rfl
    rw [List.foldl_cons, ih (overlay_unique unique first), keysOf_overlay, split]
    by_cases held : Text.foldCase first.name ∈ keysOf members
    · rw [if_pos held, List.eraseDups_append, List.eraseDups_append, List.removeAll, List.removeAll,
        List.filter_cons_of_neg (by simpa using held)]
    · rw [if_neg held, List.append_assoc, List.singleton_append]

theorem members_eq_ok (listed : schema.members typeName = .ok all) :
    ∃ chain, schema.chainOf typeName = (chain, .root) ∧
      all = (declarations chain).foldl overlay [] := by
  simp only [Schema.members, bind_eq_ok, pure_eq_ok] at listed
  obtain ⟨chain, isChain, rfl⟩ := listed
  refine ⟨chain, chainOf_of_ancestry isChain, ?_⟩
  rw [declarations, List.foldl_flatMap]

theorem keysOf_members (listed : schema.members typeName = .ok all) :
    keysOf all = (keysOf (declarations (schema.chainOf typeName).1)).eraseDups := by
  obtain ⟨chain, ends, rfl⟩ := members_eq_ok listed
  have none_ : Unique [] := List.nodup_nil
  rw [ends]
  exact keysOf_overlays none_ (declarations chain)

theorem member?_isSome_iff : (schema.member? typeName name).isSome = true ↔
    ∃ typeDecl ∈ (schema.chainOf typeName).1, declares typeDecl name = true := by
  rw [member?, List.isSome_findSome?, List.any_eq_true]
  simp only [findMember, List.isSome_find?, declares]

theorem mem_declarations : member ∈ declarations chain ↔
    ∃ typeDecl ∈ chain, member ∈ typeDecl.members := by
  simp [declarations]

theorem listed_iff_member? (listed : schema.members typeName = .ok all) :
    (∃ member ∈ all, Text.sameName member.name name = true) ↔
      (schema.member? typeName name).isSome = true := by
  rw [← mem_keysOf, keysOf_members listed, List.mem_eraseDups, mem_keysOf, member?_isSome_iff]
  simp only [mem_declarations, declares, List.any_eq_true]
  constructor
  · rintro ⟨member, ⟨typeDecl, onChain, isDeclared⟩, same⟩
    exact ⟨typeDecl, onChain, member, isDeclared, same⟩
  · rintro ⟨typeDecl, onChain, member, isDeclared, same⟩
    exact ⟨member, ⟨typeDecl, onChain, isDeclared⟩, same⟩

theorem mem_overlays_of_last {before after : List MemberDecl}
    (last : ∀ other ∈ after, ¬ Text.sameName member.name other.name = true) :
    member ∈ (before ++ member :: after).foldl overlay members := by
  rw [List.foldl_append, List.foldl_cons]
  exact mem_overlays_of_other (mem_overlay _ member) last

theorem findMember_of_unique (unique : Unique all) (isMember : member ∈ all)
    (same : Text.sameName member.name name = true) : findMember all name = some member := by
  have some_ : (findMember all name).isSome = true := by
    rw [findMember, List.isSome_find?, List.any_eq_true]
    exact ⟨member, isMember, same⟩
  obtain ⟨found, isFound⟩ := Option.isSome_iff_exists.1 some_
  rw [isFound, unique.eq_of_sameName (List.mem_of_find?_eq_some isFound) isMember]
  rw [Text.sameName_iff] at same ⊢
  rw [same, ← Text.sameName_iff]
  exact sameName_of_findMember isFound

theorem member?_of_declared_once (declaring : chain.find? (declares · name) = some typeDecl)
    (once : typeDecl.members.countP (fun member => Text.sameName member.name name) = 1) :
    ∃ member ∈ typeDecl.members, Text.sameName member.name name = true ∧
      chain.findSome? (fun typeDecl => findMember typeDecl.members name) = some member ∧
      member ∈ (declarations chain).foldl overlay [] := by
  obtain ⟨isDeclared, above, below, rfl, silent⟩ := List.find?_eq_some_iff_append.1 declaring
  have silent (held : TypeDecl) (isAbove : held ∈ above) (other : MemberDecl)
      (isOther : other ∈ held.members) : ¬ Text.sameName other.name name = true := by
    have none_ := silent held isAbove
    simp only [declares, Bool.not_eq_eq_eq_not, Bool.not_true, List.any_eq_false] at none_
    exact none_ other isOther
  have some_ : (findMember typeDecl.members name).isSome = true := by
    rw [findMember, List.isSome_find?]
    exact isDeclared
  obtain ⟨member, isFound⟩ := Option.isSome_iff_exists.1 some_
  have same := sameName_of_findMember isFound
  obtain ⟨-, before, after, split, -⟩ := List.find?_eq_some_iff_append.1 isFound
  -- The name is counted once and found here, so no declaration behind it has the name.
  have others : ∀ other ∈ after, ¬ Text.sameName other.name name = true := by
    rw [split, List.countP_append, List.countP_cons, if_pos same] at once
    have none_ : after.countP (fun other => Text.sameName other.name name) = 0 := by omega
    exact List.countP_eq_zero.1 none_
  refine ⟨member, List.mem_of_find?_eq_some isFound, same, ?_, ?_⟩
  · have none_ : above.findSome? (fun held => findMember held.members name) = none := by
      rw [List.findSome?_eq_none_iff]
      exact fun held isAbove => List.find?_eq_none.2 (silent held isAbove)
    rw [List.findSome?_append, none_, Option.none_or, List.findSome?_cons, isFound]
  · -- What is laid over the member comes from its own type behind it, or from a more derived one.
    have later : declarations (above ++ typeDecl :: below) =
        (declarations below ++ before) ++ member :: (after ++ declarations above) := by
      simp [declarations, split]
    rw [later]
    refine mem_overlays_of_last fun other isLater sameOther => ?_
    rw [Text.sameName_comm] at sameOther
    have isNamed := Text.sameName_trans sameOther same
    rcases List.mem_append.1 isLater with isAfter | isAbove
    · exact others other isAfter isNamed
    · obtain ⟨held, isHeld, isOther⟩ := mem_declarations.1 isAbove
      exact silent held isHeld other isOther isNamed

theorem baseChain_root_of_fewer {fuel fuel' : Nat} {seen seen' : List String}
    (ends : schema.baseChain fuel seen typeName = (chain, .root)) (more : fuel ≤ fuel')
    (fewer : seen' ⊆ seen) : schema.baseChain fuel' seen' typeName = (chain, .root) := by
  induction fuel generalizing fuel' seen seen' typeName chain with
  | zero => simp [baseChain] at ends
  | succ fuel ih =>
    obtain ⟨fuel', rfl⟩ : ∃ less, fuel' = less + 1 := ⟨fuel' - 1, by omega⟩
    simp only [baseChain] at ends ⊢
    split at ends
    next => simp at ends
    next first =>
      have first' : ¬ seen'.contains typeName = true := by
        simp only [List.contains_iff_mem] at first ⊢
        exact fun earlier => first (fewer earlier)
      rw [if_neg first']
      cases found : schema.find? typeName with
      | none => simp [found] at ends
      | some typeDecl =>
        cases isBase : typeDecl.base with
        | none => simpa [found, isBase] using ends
        | some base =>
          simp only [found, isBase, Prod.mk.injEq] at ends ⊢
          obtain ⟨rfl, isRoot⟩ := ends
          -- Less has been seen and more fuel is left, so the walk goes on as it did.
          have above := ih (Prod.ext rfl isRoot) (Nat.le_of_succ_le_succ more)
            (List.cons_subset_cons typeName fewer)
          exact ⟨by rw [above], by rw [above]⟩

theorem chainOf_base {base : String} (isBase : schema.base? typeName = some base)
    (ends : schema.chainOf typeName = (chain, .root)) :
    ∃ typeDecl bases, schema.chainOf base = (bases, .root) ∧ chain = typeDecl :: bases := by
  obtain ⟨typeDecl, found, above⟩ := Option.bind_eq_some_iff.1 isBase
  simp only [chainOf, baseChain, List.contains_nil, Bool.false_eq_true, if_false, found, above,
    Prod.mk.injEq] at ends
  obtain ⟨rfl, isRoot⟩ := ends
  exact ⟨typeDecl, _,
    baseChain_root_of_fewer (Prod.ext rfl isRoot) (Nat.le_succ _) (List.nil_subset _), rfl⟩

theorem members_of_base {base : String} (listed : schema.members typeName = .ok all)
    (isBase : schema.base? typeName = some base) :
    ∃ bases, schema.members base = .ok bases ∧ keysOf bases <+: keysOf all := by
  obtain ⟨chain, isChain, -⟩ := members_eq_ok listed
  obtain ⟨typeDecl, above, ends, rfl⟩ := chainOf_base isBase isChain
  have isListed : ∃ bases, schema.members base = .ok bases := by
    simp [members, ancestry, ends, pure, Except.pure]
  obtain ⟨bases, isListed⟩ := isListed
  refine ⟨bases, isListed, ?_⟩
  have inOrder : declarations (typeDecl :: above) = declarations above ++ typeDecl.members := by
    simp [declarations]
  rw [keysOf_members listed, keysOf_members isListed, ends, isChain, inOrder, keysOf_append,
    List.eraseDups_append]
  exact List.prefix_append _ _

/-- A list of members is that of a type, as the names of the type resolve. -/
structure Flattens (schema : Schema) (typeName : String) (all : List MemberDecl) : Prop where
  unique : Unique all
  resolves : ∀ name, (∃ member ∈ all, Text.sameName member.name name = true) ↔
    (schema.member? typeName name).isSome = true
  walk : ∀ steps, schema.baseAt typeName steps =
    (schema.chainOf typeName).1[steps]?.map TypeDecl.name
  same : ∀ name typeDecl,
    (schema.chainOf typeName).1.find? (declares · name) = some typeDecl →
    typeDecl.members.countP (fun member => Text.sameName member.name name) = 1 →
      ∃ member ∈ typeDecl.members, Text.sameName member.name name = true ∧
        schema.member? typeName name = some member ∧ findMember all name = some member
  places : keysOf all = (keysOf (declarations (schema.chainOf typeName).1)).eraseDups
  basesFirst : ∀ base, schema.base? typeName = some base →
    ∃ bases, schema.members base = .ok bases ∧ keysOf bases <+: keysOf all

theorem members_flattens (listed : schema.members typeName = .ok all) :
    schema.Flattens typeName all := by
  obtain ⟨chain, ends, isAll⟩ := members_eq_ok listed
  have unique := members_unique listed
  refine ⟨unique, fun name => listed_iff_member? listed, fun steps => ?_,
    fun name typeDecl declaring once => ?_, keysOf_members listed,
    fun base isBase => members_of_base listed isBase⟩
  · have walked := schema.chainOf_walked typeName
    rw [ends] at walked ⊢
    exact walked.baseAt_eq steps
  · rw [ends] at declaring
    obtain ⟨member, isDeclared, same, isFirst, isHeld⟩ := member?_of_declared_once declaring once
    rw [← isAll] at isHeld
    refine ⟨member, isDeclared, same, ?_, findMember_of_unique unique isHeld same⟩
    rw [member?, ends]
    exact isFirst

/-- Both look-ups end, on chains of any kind. Members are listed exactly where the walk to the bases
ends at a type without one, and then the list and the names that resolve agree. -/
theorem lookups_agree (schema : Schema) (typeName : String) :
    ((∀ fuel, schema.types.length < fuel →
        schema.baseChain fuel [] typeName = schema.chainOf typeName) ∧
      (schema.chainOf typeName).1.length ≤ schema.types.length) ∧
    (schema.members typeName = .error (.cyclicBase typeName) ↔ schema.Revisits typeName) ∧
    (∀ missing, schema.members typeName = .error (.unknownType missing) ↔
      schema.ReachesUnregistered typeName missing) ∧
    ((∃ all, schema.members typeName = .ok all) ↔
      ¬ schema.Revisits typeName ∧ ∀ missing, ¬ schema.ReachesUnregistered typeName missing) ∧
    ∀ all, schema.members typeName = .ok all → schema.Flattens typeName all := by
  obtain ⟨cyclic, unknown, listed⟩ := schema.members_outcome typeName
  exact ⟨⟨fun fuel => baseChain_eq_chainOf, (schema.chainOf_walked typeName).length_le⟩, cyclic,
    unknown, listed, fun all => members_flattens⟩

def shipSchema : Schema :=
  ⟨[⟨"Vessel", .entity, none, [⟨"Name", .scalar .string⟩, ⟨"Length", .scalar .int32⟩]⟩,
    ⟨"Ship", .entity, some "Vessel", [⟨"Crew", .scalar .int32⟩, ⟨"NAME", .nullable (.scalar .string)⟩]⟩,
    ⟨"Steamer", .entity, some "Ship", [⟨"length", .scalar .double⟩, ⟨"Boilers", .scalar .int32⟩]⟩,
    ⟨"Ferry", .entity, some "Barge", []⟩, ⟨"Barge", .entity, some "Ferry", []⟩]⟩

theorem lookups_agree_steamer :
    (∃ all, shipSchema.members "Steamer" = .ok all ∧
      all.map MemberDecl.name = ["NAME", "length", "Crew", "Boilers"] ∧
      shipSchema.member? "Steamer" "LENGTH" = findMember all "LENGTH") ∧
    shipSchema.members "Ferry" = .error (.cyclicBase "Ferry") ∧
    shipSchema.Revisits "Ferry" := by
  obtain ⟨-, -, -, -, agree⟩ := lookups_agree shipSchema "Steamer"
  obtain ⟨-, cyclic, -, -, -⟩ := lookups_agree shipSchema "Ferry"
  obtain ⟨all, listed, names⟩ := exists_of_toOption_any (shipSchema.members "Steamer")
    (fun all => all.map MemberDecl.name == ["NAME", "length", "Crew", "Boilers"]) (by rfl)
  obtain ⟨member, -, -, resolved, isFound⟩ := (agree all listed).same "LENGTH"
    ⟨"Steamer", .entity, some "Ship", [⟨"length", .scalar .double⟩, ⟨"Boilers", .scalar .int32⟩]⟩
    (by rfl) (by rfl)
  have cycle : shipSchema.members "Ferry" = .error (.cyclicBase "Ferry") := by rfl
  exact ⟨⟨all, listed, by simpa using names, by rw [resolved, isFound]⟩, cycle, cyclic.1 cycle⟩

end QueryProjection.Schema
