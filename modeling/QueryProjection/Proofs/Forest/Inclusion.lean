import QueryProjection.Proofs.Forest.Includes

set_option autoImplicit false

namespace QueryProjection

open Outcome

def MemberPath.Begins (path : MemberPath) (start : List String) : Prop :=
  start.map Text.foldCase <+: path.names.map Text.foldCase

instance (path : MemberPath) (start : List String) : Decidable (path.Begins start) :=
  inferInstanceAs (Decidable (_ <+: _))

theorem MemberPath.begins_append (before rest : MemberPath) (start : List String) :
    (before ++ rest : MemberPath).Begins (before.names ++ start) ↔ rest.Begins start := by
  simp [Begins, names, List.prefix_append_right_inj]

theorem MemberPath.Begins.of_append {path : MemberPath} {start later : List String}
    (begins : path.Begins (start ++ later)) : path.Begins start := by
  unfold Begins at begins ⊢
  rw [List.map_append] at begins
  exact (List.prefix_append _ _).trans begins

variable {schema : Schema} {rootType typeName : String} {path : MemberPath} {step : PathStep}
  {member : MemberDecl} {position : List String}

theorem Walk.tail {element : String} {rest : MemberPath}
    (walk : Walk schema typeName (step :: rest)) (leads : step.element? = some element) :
    Walk schema element rest := by
  cases walk with
  | last _ => exact .nil element
  | cons _ leads' later =>
    cases leads.symm.trans leads'
    exact later

namespace Schema.DeclaresOnce

theorem eq_of_lists (once : schema.DeclaresOnce) {name : String} {found : MemberDecl}
    (listed : schema.Lists typeName member) (resolved : schema.resolve typeName name = .ok found)
    (same : Text.sameName name member.name = true) : found = member := by
  obtain ⟨all, isAll, isMember⟩ := listed
  have isFound := lists_of_resolve once isAll resolved
  exact (members_unique isAll).eq_of_sameName isFound isMember
    (Text.sameName_trans (sameName_of_resolve resolved) same)

theorem walk_of_namesOf (once : schema.DeclaresOnce) {names : List String}
    (leads : path.Leads schema typeName) (named : Include.namesOf schema path = .ok names) :
    Walk schema typeName path ∧ names = path.names := by
  induction path generalizing typeName names with
  | nil =>
    simp only [Include.namesOf, Except.ok.injEq] at named
    exact ⟨.nil typeName, named.symm⟩
  | cons step rest ih =>
    simp only [Include.namesOf, bind_eq_ok, pure_eq_ok] at named
    obtain ⟨found, resolved, names, named, rfl⟩ := named
    obtain ⟨belongs, leads⟩ := leads
    rw [belongs.declared] at resolved
    -- By name a step is looked up again; declared once, the member is the one of the step.
    have isStep : found = step.member := by
      cases belongs with
      | inl resolves => exact Except.ok.inj (resolved.symm.trans resolves.2)
      | inr listed => exact once.eq_of_lists listed.2 resolved (Text.sameName_refl _)
    rw [isStep] at resolved
    have own := Schema.resolve_own_name resolved
    simp only [PathStep.member] at own
    have resolves : step.ResolvesOn schema typeName := ⟨belongs.declared, own⟩
    have first : found.name = step.memberName := congrArg MemberDecl.name isStep
    cases toElement : step.element? with
    | none =>
      simp only [toElement] at leads
      subst leads
      simp only [Include.namesOf, Except.ok.injEq] at named
      subst named
      exact ⟨.last resolves, by simp [first, MemberPath.names]⟩
    | some element =>
      simp only [toElement] at leads
      obtain ⟨walk, rfl⟩ := ih leads named
      refine ⟨?_, by simp [first, MemberPath.names]⟩
      cases rest with
      | nil => exact .last resolves
      | cons next rest => exact .cons resolves toElement walk

theorem step_of_begins (once : schema.DeclaresOnce) (listed : schema.Lists typeName member)
    (walk : Walk schema typeName path) (begins : path.Begins [member.name]) :
    ∃ step rest, path = step :: rest ∧ step.member = member := by
  cases path with
  | nil => simp [MemberPath.Begins, MemberPath.names] at begins
  | cons step rest =>
    refine ⟨step, rest, rfl, once.eq_of_lists listed walk.first.2 ?_⟩
    rw [Text.sameName_iff]
    simpa [MemberPath.Begins, MemberPath.names, eq_comm] using begins

end Schema.DeclaresOnce

inductive Schema.Reaches (schema : Schema) (rootType : String) : List String → String → Prop where
  | root : Reaches schema rootType [] rootType
  | member {position : List String} {typeName element : String} {member : MemberDecl}
      (reaches : Reaches schema rootType position typeName) (listed : schema.Lists typeName member)
      (leads : member.ty.typeName? = some element) :
      Reaches schema rootType (position ++ [member.name]) element

namespace Schema.Reaches

theorem walk_of_begins (once : schema.DeclaresOnce)
    (reaches : schema.Reaches rootType position typeName) (walk : Walk schema rootType path)
    (begins : path.Begins position) :
    ∃ before rest, path = before ++ rest ∧ MemberPath.names before = position ∧
      Walk schema typeName rest := by
  induction reaches with
  | root => exact ⟨[], path, rfl, rfl, walk⟩
  | @member position typeName element member reaches listed leads ih =>
    obtain ⟨before, rest, rfl, rfl, walkRest⟩ := ih begins.of_append
    obtain ⟨step, later, rfl, same⟩ :=
      once.step_of_begins listed walkRest ((MemberPath.begins_append _ _ _).1 begins)
    have leadsStep : step.element? = some element := by
      rw [← leads, ← same]
      rfl
    exact ⟨before ++ [step], later, by simp, by simp [MemberPath.names, ← same, PathStep.member],
      walkRest.tail leadsStep⟩

theorem step_of_begins (once : schema.DeclaresOnce)
    (reaches : schema.Reaches rootType position typeName) (listed : schema.Lists typeName member)
    (walk : Walk schema rootType path) (begins : path.Begins (position ++ [member.name])) :
    ∃ before step rest, path = before ++ step :: rest ∧ MemberPath.names before = position ∧
      step.member = member := by
  obtain ⟨before, rest, rfl, rfl, walkRest⟩ := reaches.walk_of_begins once walk begins.of_append
  obtain ⟨step, later, rfl, same⟩ :=
    once.step_of_begins listed walkRest ((MemberPath.begins_append _ _ _).1 begins)
  exact ⟨before, step, later, rfl, rfl, same⟩

end Schema.Reaches

theorem Include.expansion_of_liesOnExpansions {expansions : List MemberPath}
    {passed before rest : MemberPath}
    (lies : liesOnExpansions schema expansions passed (before ++ step :: rest) = .ok true)
    (navigates : schema.targetKind step.memberType = .ok .entity) :
    ∃ expansion ∈ expansions,
      MemberPath.startsWith expansion (passed.reverse ++ before ++ [step]) = true := by
  induction before generalizing passed with
  | nil =>
    simp only [List.nil_append, liesOnExpansions, navigates, ok_bind, if_true] at lies
    split at lies
    next found =>
      obtain ⟨expansion, isExpansion, starts⟩ := List.any_eq_true.1 found
      exact ⟨expansion, isExpansion, by simpa using starts⟩
    next => simp [pure_eq_ok] at lies
  | cons first later ih =>
    have below : liesOnExpansions schema expansions (first :: passed) (later ++ step :: rest) =
        .ok true := by
      simp only [List.cons_append, liesOnExpansions, bind_eq_ok] at lies
      obtain ⟨kind, -, lies⟩ := lies
      split at lies
      next =>
        split at lies
        next => exact lies
        next => simp [pure_eq_ok] at lies
      next => exact lies
    obtain ⟨expansion, isExpansion, starts⟩ := ih below
    exact ⟨expansion, isExpansion, by simpa using starts⟩

theorem MemberPath.begins_of_startsWith {start : MemberPath}
    (starts : path.startsWith start = true) : path.Begins start.names := by
  rw [startsWith, List.isPrefixOf_iff_prefix] at starts
  exact starts.map _

namespace Forest

variable {forest : Forest}

def Asks (schema : Schema) (forest : Forest) (start : List String) : Prop :=
  ∃ path, forest.Includes schema path ∧ path.Begins start

theorem expansion_of_asks (once : schema.DeclaresOnce)
    (walks : ∀ path, forest.Includes schema path → Walk schema rootType path)
    (reaches : schema.Reaches rootType position typeName) (listed : schema.Lists typeName member)
    (navigates : schema.targetKind member.ty = .ok .entity)
    (asks : forest.Asks schema (position ++ [member.name])) :
    ∃ expansion ∈ forest.expansions, expansion.Begins (position ++ [member.name]) := by
  obtain ⟨path, included, begins⟩ := asks
  rcases included with expanded | ⟨selected, lies⟩
  · exact ⟨path, expanded, begins⟩
  · obtain ⟨before, step, rest, rfl, rfl, same⟩ :=
      reaches.step_of_begins once listed (walks path (.inr ⟨selected, lies⟩)) begins
    subst same
    obtain ⟨expansion, isExpansion, starts⟩ :=
      Include.expansion_of_liesOnExpansions lies navigates
    have expands := MemberPath.begins_of_startsWith starts
    exact ⟨expansion, isExpansion, by simpa [MemberPath.names, PathStep.member] using expands⟩

def treeAt (paths : List MemberPath) (position : List String) : IncludeTree :=
  .insertAll (IncludeTree.behind position (paths.map MemberPath.names)) .empty

section Tree

variable {paths : List MemberPath} (once : schema.DeclaresOnce)
  (isIncluded : ∀ path, path ∈ paths ↔ forest.Includes schema path)
  (walks : ∀ path, forest.Includes schema path → Walk schema rootType path)
  (reaches : schema.Reaches rootType position typeName)

include isIncluded

theorem asks_of_behind {start rest : List String}
    (isBehind : rest ∈ IncludeTree.behind start (paths.map MemberPath.names)) :
    ∃ path, forest.Includes schema path ∧ path.names = start ++ rest := by
  obtain ⟨path, isPath, same⟩ := List.mem_map.1 (IncludeTree.mem_behind.1 isBehind)
  exact ⟨path, (isIncluded path).1 isPath, same⟩

include once walks reaches

theorem child?_treeAt (listed : schema.Lists typeName member) :
    forest.Asks schema (position ++ [member.name]) ∧
      (treeAt paths position).child? member.name = some (treeAt paths (position ++ [member.name])) ∨
    ¬ forest.Asks schema (position ++ [member.name]) ∧
      (treeAt paths position).child? member.name = none ∧
      treeAt paths (position ++ [member.name]) = .empty := by
  have step {path : MemberPath} (included : forest.Includes schema path)
      (begins : path.Begins (position ++ [member.name])) :
      ∃ rest, path.names = position ++ member.name :: rest := by
    obtain ⟨before, step, rest, rfl, rfl, same⟩ :=
      reaches.step_of_begins once listed (walks path included) begins
    exact ⟨MemberPath.names rest, by simp [MemberPath.names, ← same, PathStep.member]⟩
  -- A name that is spelled otherwise would be the same child, but paths name members as they are
  -- listed.
  have heads : ∀ first rest, first :: rest ∈ IncludeTree.behind position (paths.map MemberPath.names) →
      Text.sameName first member.name = true → first = member.name := by
    intro first rest isBehind same
    obtain ⟨path, included, names⟩ := asks_of_behind isIncluded isBehind
    have begins : path.Begins (position ++ [member.name]) := by
      rw [Text.sameName_iff] at same
      simp [MemberPath.Begins, names, same, List.prefix_append_right_inj]
    obtain ⟨rest', names'⟩ := step included begins
    have tails := List.append_cancel_left (names.symm.trans names')
    exact (List.cons.inj tails).1
  have clear : ∀ entry ∈ IncludeTree.empty.children,
      Text.sameName entry.1 member.name = true → entry.1 = member.name := by
    simp [IncludeTree.empty, IncludeTree.children]
  have child := IncludeTree.child?_insertAll clear heads
  rw [← IncludeTree.behind_append] at child
  by_cases none_ : IncludeTree.behind (position ++ [member.name]) (paths.map MemberPath.names) = []
  · refine .inr ⟨?_, ?_, ?_⟩
    · rintro ⟨path, included, begins⟩
      obtain ⟨rest, names⟩ := step included begins
      have isBehind : rest ∈ IncludeTree.behind (position ++ [member.name])
          (paths.map MemberPath.names) := by
        rw [IncludeTree.mem_behind, List.mem_map]
        exact ⟨path, (isIncluded path).2 included, by simp [names]⟩
      simp [none_] at isBehind
    · rw [if_pos none_] at child
      exact child
    · simp [treeAt, none_, IncludeTree.insertAll]
  · refine .inl ⟨?_, ?_⟩
    · obtain ⟨rest, isBehind⟩ := List.exists_mem_of_ne_nil _ none_
      obtain ⟨path, included, names⟩ := asks_of_behind isIncluded isBehind
      exact ⟨path, included, by simp [MemberPath.Begins, names]⟩
    · rw [if_neg none_] at child
      exact child

theorem isLeaf_treeAt : (treeAt paths position).isLeaf = true ↔
    ¬ ∃ name, forest.Asks schema (position ++ [name]) := by
  rw [treeAt, IncludeTree.isLeaf_insertAll]
  constructor
  · rintro ⟨-, ends⟩ ⟨name, path, included, begins⟩
    obtain ⟨before, rest, rfl, rfl, -⟩ :=
      reaches.walk_of_begins once (walks path included) begins.of_append
    have isBehind : MemberPath.names rest ∈
        IncludeTree.behind before.names (paths.map MemberPath.names) := by
      rw [IncludeTree.mem_behind, List.mem_map]
      exact ⟨_, (isIncluded _).2 included, by simp [MemberPath.names]⟩
    have further := (MemberPath.begins_append _ _ _).1 begins
    simp [MemberPath.Begins, ends _ isBehind] at further
  · intro nothing
    refine ⟨rfl, fun rest isBehind => ?_⟩
    obtain ⟨path, included, names⟩ := asks_of_behind isIncluded isBehind
    cases rest with
    | nil => rfl
    | cons first rest =>
      refine absurd ⟨first, path, included, ?_⟩ nothing
      simp [MemberPath.Begins, names, List.prefix_append_right_inj]

end Tree

theorem treeAt_root {includes : List Lambda} {tree : IncludeTree} (once : schema.DeclaresOnce)
    (leads : ∀ path ∈ forest.expansions ++ forest.selects, path.Leads schema rootType)
    (included : Include.ofForest schema rootType forest = .ok includes)
    (made : Mapping.includeTree includes = .ok tree) :
    ∃ paths, (∀ path, path ∈ paths ↔ forest.Includes schema path) ∧
      (∀ path, forest.Includes schema path → Walk schema rootType path) ∧
      tree = treeAt paths [] := by
  obtain ⟨paths, spelled, isIncluded, named, rfl⟩ := includeTree_eq_ok included made
  have leadsPaths : ∀ path ∈ paths, path.Leads schema rootType := by
    intro path isPath
    rcases (isIncluded path).1 isPath with expanded | ⟨selected, -⟩
    · exact leads path (List.mem_append_left _ expanded)
    · exact leads path (List.mem_append_right _ selected)
  have walks : ∀ path ∈ paths, Walk schema rootType path := by
    intro path isPath
    obtain ⟨names, -, namesPath⟩ := exists_of_forall₂ named isPath
    exact (once.walk_of_namesOf (leadsPaths path isPath) namesPath).1
  have same : spelled = paths.map MemberPath.names := by
    clear isIncluded walks made
    induction named with
    | nil => rfl
    | cons first _ ih =>
      obtain ⟨leadsFirst, leadsRest⟩ := List.forall_mem_cons.1 leadsPaths
      rw [List.map_cons, ih leadsRest, (once.walk_of_namesOf leadsFirst first).2]
  refine ⟨paths, isIncluded, fun path includes => walks path ((isIncluded path).2 includes), ?_⟩
  rw [treeAt, IncludeTree.behind_nil, same]

end Forest

end QueryProjection
