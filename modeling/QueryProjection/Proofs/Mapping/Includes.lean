import QueryProjection.Mapping.Projection
import QueryProjection.Proofs.Outcome

set_option autoImplicit false

namespace QueryProjection.IncludeTree

open Outcome

variable {name other : String}

def Covers : IncludeTree → List String → Prop
  | _, [] => True
  | tree, name :: rest => ∃ child, tree.child? name = some child ∧ Covers child rest

def Clear : IncludeTree → List String → Prop
  | _, [] => True
  | tree, name :: rest =>
      (∀ entry ∈ tree.children, Text.sameName entry.1 name = true → entry.1 = name) ∧
        ∀ child, tree.child? name = some child → Clear child rest

def Apart : List String → List String → Prop
  | name :: rest, other :: rest' =>
      (Text.sameName other name = true → other = name) ∧ (other = name → Apart rest rest')
  | _, _ => True

theorem name_of_mem_updateChild {change : IncludeTree → IncludeTree}
    {children : List (String × IncludeTree)} {entry : String × IncludeTree}
    (member : entry ∈ updateChild name change children) :
    entry.1 = name ∨ ∃ held ∈ children, held.1 = entry.1 := by
  induction children with
  | nil =>
    simp only [updateChild, List.mem_singleton] at member
    exact .inl (congrArg Prod.fst member)
  | cons held rest ih =>
    simp only [updateChild] at member
    split at member
    next =>
      rcases List.mem_cons.1 member with rfl | later
      · exact .inr ⟨held, List.mem_cons_self, rfl⟩
      · exact .inr ⟨entry, List.mem_cons_of_mem _ later, rfl⟩
    next =>
      rcases List.mem_cons.1 member with rfl | later
      · exact .inr ⟨held, List.mem_cons_self, rfl⟩
      · rcases ih later with same | ⟨earlier, isHeld, same⟩
        · exact .inl same
        · exact .inr ⟨earlier, List.mem_cons_of_mem _ isHeld, same⟩

theorem child?_updateChild {change : IncludeTree → IncludeTree}
    (children : List (String × IncludeTree))
    (clear : ∀ entry ∈ children, Text.sameName entry.1 name = true → entry.1 = name) :
    (IncludeTree.node (updateChild name change children)).child? name =
      some (change (((IncludeTree.node children).child? name).getD empty)) := by
  induction children with
  | nil => simp [updateChild, child?, IncludeTree.children, Text.sameName_refl]
  | cons held rest ih =>
    obtain ⟨clearHeld, clearRest⟩ := List.forall_mem_cons.1 clear
    have later := ih clearRest
    simp only [child?, IncludeTree.children, updateChild] at later ⊢
    by_cases same : held.1 = name
    · simp [same, Text.sameName_refl]
    · have different : ¬ Text.sameName held.1 name = true := fun equal => same (clearHeld equal)
      simp only [beq_iff_eq, same, if_false, List.find?_cons, different, later]

theorem child?_updateChild_of_ne {change : IncludeTree → IncludeTree}
    {children : List (String × IncludeTree)} (apart : ¬ Text.sameName other name = true) :
    (IncludeTree.node (updateChild other change children)).child? name =
      (IncludeTree.node children).child? name := by
  induction children with
  | nil => simp [updateChild, child?, IncludeTree.children, apart]
  | cons held rest ih =>
    simp only [child?, IncludeTree.children, updateChild] at ih ⊢
    by_cases same : held.1 = other
    · simp [same, apart]
    · simp only [beq_iff_eq, same, if_false, List.find?_cons]
      split
      next => rfl
      next => exact ih

theorem clear_empty (path : List String) : Clear empty path := by
  cases path with
  | nil => trivial
  | cons name rest => simp [Clear, empty, IncludeTree.children, child?]

theorem clear_insert {path inserted : List String} {tree : IncludeTree} (clear : Clear tree path)
    (apart : Apart path inserted) : Clear (insert inserted tree) path := by
  induction path generalizing inserted tree with
  | nil => trivial
  | cons name rest ih =>
    cases inserted with
    | nil => exact clear
    | cons other later =>
      obtain ⟨children⟩ := tree
      obtain ⟨clearHere, clearBelow⟩ := clear
      obtain ⟨apartHere, apartBelow⟩ := apart
      refine ⟨?_, ?_⟩
      · intro entry member same
        rcases name_of_mem_updateChild member with isOther | ⟨held, isHeld, sameHeld⟩
        · rw [isOther] at same ⊢
          exact apartHere same
        · rw [← sameHeld] at same ⊢
          exact clearHere held isHeld same
      · intro child found
        -- Below another name nothing is inserted; below this one the rest of the path is.
        by_cases same : Text.sameName other name = true
        · have equal := apartHere same
          subst equal
          simp only [insert, child?_updateChild children clearHere, Option.some.injEq] at found
          subst found
          refine ih ?_ (apartBelow rfl)
          cases present : (IncludeTree.node children).child? other with
          | none => exact clear_empty rest
          | some held => exact clearBelow held present
        · simp only [insert, child?_updateChild_of_ne same] at found
          exact clearBelow child found

theorem covers_insert {path inserted : List String} {tree : IncludeTree} (clear : Clear tree path)
    (apart : Apart path inserted) (covers : Covers tree path) :
    Covers (insert inserted tree) path := by
  induction path generalizing inserted tree with
  | nil => trivial
  | cons name rest ih =>
    cases inserted with
    | nil => exact covers
    | cons other later =>
      obtain ⟨children⟩ := tree
      obtain ⟨clearHere, clearBelow⟩ := clear
      obtain ⟨apartHere, apartBelow⟩ := apart
      obtain ⟨child, found, covers⟩ := covers
      by_cases same : Text.sameName other name = true
      · have equal := apartHere same
        subst equal
        refine ⟨insert later child, ?_, ih (clearBelow child found) (apartBelow rfl) covers⟩
        simp only [insert, child?_updateChild children clearHere, found, Option.getD_some]
      · refine ⟨child, ?_, covers⟩
        simp only [insert, child?_updateChild_of_ne same, found]

theorem covers_insert_self {path : List String} {tree : IncludeTree} (clear : Clear tree path)
    (later : List String) : Covers (insert (path ++ later) tree) path := by
  induction path generalizing tree with
  | nil => trivial
  | cons name rest ih =>
    obtain ⟨children⟩ := tree
    obtain ⟨clearHere, clearBelow⟩ := clear
    refine ⟨_, by simp only [List.cons_append, insert]; exact child?_updateChild children clearHere,
      ih ?_⟩
    cases present : (IncludeTree.node children).child? name with
    | none => exact clear_empty rest
    | some held => exact clearBelow held present

theorem covers_foldl {path later : List String} {paths : List (List String)}
    (apart : ∀ other ∈ paths, Apart path other) {tree : IncludeTree} (clear : Clear tree path)
    (covered : path ++ later ∈ paths ∨ Covers tree path) :
    Covers (paths.foldl (fun tree inserted => insert inserted tree) tree) path := by
  induction paths generalizing tree with
  | nil => simpa using covered
  | cons first rest ih =>
    obtain ⟨apartFirst, apartRest⟩ := List.forall_mem_cons.1 apart
    refine ih apartRest (clear_insert clear apartFirst) ?_
    rcases covered with member | covers
    · rcases List.mem_cons.1 member with rfl | isLater
      · exact .inr (covers_insert_self clear later)
      · exact .inl isLater
    · exact .inr (covers_insert clear apartFirst covers)

theorem covers_of_mem {paths : List (List String)} {path later : List String}
    (member : path ++ later ∈ paths) (apart : ∀ other ∈ paths, Apart path other) :
    Covers (paths.foldl (fun tree inserted => insert inserted tree) empty) path :=
  covers_foldl apart (clear_empty path) (.inl member)

def insertAll (paths : List (List String)) (tree : IncludeTree) : IncludeTree :=
  paths.foldl (fun tree path => insert path tree) tree

def behind (start : List String) (paths : List (List String)) : List (List String) :=
  paths.filterMap fun path => path.dropPrefix? start

variable {paths : List (List String)} {start : List String}

theorem mem_behind {rest : List String} : rest ∈ behind start paths ↔ start ++ rest ∈ paths := by
  simp only [behind, List.mem_filterMap, List.dropPrefix?_eq_some_iff, beq_iff_eq]
  constructor
  · rintro ⟨path, isPath, _, rfl, rfl⟩
    exact isPath
  · intro isPath
    exact ⟨_, isPath, _, rfl, rfl⟩

theorem behind_append (start : List String) (name : String) (paths : List (List String)) :
    behind (start ++ [name]) paths = behind [name] (behind start paths) := by
  simp only [behind, List.filterMap_filterMap]
  congr 1
  funext path
  ext rest
  simp only [List.dropPrefix?_eq_some_iff, beq_iff_eq, Option.bind_eq_some_iff]
  constructor
  · rintro ⟨_, rfl, rfl⟩
    exact ⟨name :: rest, ⟨_, by simp, rfl⟩, [name], rfl, rfl⟩
  · rintro ⟨_, ⟨_, rfl, rfl⟩, _, rfl, rfl⟩
    exact ⟨_, by simp, rfl⟩

theorem behind_nil (paths : List (List String)) : behind [] paths = paths := by
  simp [behind]

theorem child?_insertAll {tree : IncludeTree}
    (clear : ∀ entry ∈ tree.children, Text.sameName entry.1 name = true → entry.1 = name)
    (heads : ∀ first rest, first :: rest ∈ paths → Text.sameName first name = true → first = name) :
    (insertAll paths tree).child? name =
      if behind [name] paths = [] then tree.child? name
      else some (insertAll (behind [name] paths) ((tree.child? name).getD empty)) := by
  induction paths generalizing tree with
  | nil => rfl
  | cons path rest ih =>
    have headsRest first later (member : first :: later ∈ rest) :=
      heads first later (List.mem_cons_of_mem _ member)
    cases path with
    | nil => exact ih clear headsRest
    | cons first later =>
      obtain ⟨children⟩ := tree
      have headsFirst := heads first later List.mem_cons_self
      have clearLater : ∀ entry ∈ updateChild first (insert later) children,
          Text.sameName entry.1 name = true → entry.1 = name := by
        intro entry member same
        rcases name_of_mem_updateChild member with isFirst | ⟨held, isHeld, sameHeld⟩
        · rw [isFirst] at same ⊢
          exact headsFirst same
        · rw [← sameHeld] at same ⊢
          exact clear held isHeld same
      have inserted := @ih (.node (updateChild first (insert later) children)) clearLater headsRest
      simp only [insertAll, List.foldl_cons, insert] at inserted ⊢
      rw [inserted]
      by_cases equal : first = name
      · subst equal
        -- The path adds its rest to what the other ones put below the member.
        rw [child?_updateChild children clear]
        have more : behind [first] ((first :: later) :: rest) = later :: behind [first] rest := by
          simp [behind, List.dropPrefix?]
        by_cases none_ : behind [first] rest = []
        · simp [more, none_]
        · simp [more, none_]
      · have apart : ¬ Text.sameName first name = true := fun same => equal (headsFirst same)
        rw [child?_updateChild_of_ne apart]
        simp [behind, List.dropPrefix?, equal]

theorem isLeaf_insertAll (paths : List (List String)) (tree : IncludeTree) :
    (insertAll paths tree).isLeaf = true ↔ tree.isLeaf = true ∧ ∀ path ∈ paths, path = [] := by
  induction paths generalizing tree with
  | nil => simp [insertAll]
  | cons path rest ih =>
    have later := ih (insert path tree)
    simp only [insertAll, List.foldl_cons] at later ⊢
    rw [later]
    cases path with
    | nil => simp [insert]
    | cons first more =>
      obtain ⟨children⟩ := tree
      have grown : (insert (first :: more) (.node children)).isLeaf = false := by
        cases children with
        | nil => rfl
        | cons held others =>
          simp only [insert, updateChild]
          split
          next => rfl
          next => rfl
      simp [grown]

end QueryProjection.IncludeTree
