import QueryProjection.Proofs.Forest.DefaultSteps
import QueryProjection.Proofs.Forest.ExpandItems

set_option autoImplicit false

namespace QueryProjection

namespace Resolver

variable {resolver : Resolver} {belowSelect : Bool} {typeName : String} {path : MemberPath}
  {items : List ClauseItem} {found : List ExpandItem} {forest forest' : Forest}

theorem addDefaults_expansions (added : resolver.addDefaults typeName path forest = .ok forest') :
    forest'.expansions = forest.expansions := by
  have keeps : resolver.KeepsDefaults (fun _ _ => True)
      (fun later => later.expansions = forest.expansions) :=
    ⟨fun _ _ _ _ _ _ same => same, fun _ _ _ _ _ _ _ => trivial⟩
  exact keeps.addDefaults trivial rfl added

end Resolver

theorem Forest.mem_of_mem_addPath {paths : List MemberPath} {path target : MemberPath}
    (member : path ∈ addPath paths target) : path ∈ paths ∨ target = path := by
  unfold addPath at member
  split at member
  next => exact .inl member
  next =>
    rcases List.mem_append.1 member with earlier | added
    · exact .inl earlier
    · exact .inr (List.mem_singleton.1 added).symm

theorem Forest.subset_addPath (paths : List MemberPath) (target : MemberPath) :
    paths ⊆ addPath paths target := by
  unfold addPath
  split
  next => exact List.Subset.refl _
  next => exact List.subset_append_left _ _

theorem Forest.target_mem_addPath {paths : List MemberPath} {target : MemberPath}
    (new : ∀ path ∈ paths, path.names ≠ target.names) : target ∈ addPath paths target := by
  unfold addPath
  split
  next found =>
    obtain ⟨path, member, same⟩ := List.any_eq_true.1 found
    exact absurd (beq_iff_eq.1 same).symm (new path member)
  next => simp

/-- Paths that name different members somewhere. -/
def ExpandItem.Distinct (items : List ExpandItem) : Prop :=
  items.Pairwise fun item other => item.target.names ≠ other.target.names

structure Forest.GrowsBy (found : List ExpandItem) (forest forest' : Forest) : Prop where
  keeps : ∀ path ∈ forest.expansions, path ∈ forest'.expansions
  adds : ∀ path ∈ forest'.expansions,
    path ∈ forest.expansions ∨ ∃ item ∈ found, item.target = path
  reaches : ExpandItem.Distinct found →
    (∀ path ∈ forest.expansions, ∀ item ∈ found, path.names ≠ item.target.names) →
    ∀ item ∈ found, ∃ path ∈ forest'.expansions, item.target <+: path

namespace Forest.GrowsBy

variable {found found' : List ExpandItem} {forest middle forest' : Forest}

theorem of_eq (same : forest'.expansions = forest.expansions) : GrowsBy [] forest forest' where
  keeps path member := same ▸ member
  adds path member := .inl (same ▸ member)
  reaches _ _ item member := by simp at member

theorem trans (first : GrowsBy found forest middle) (second : GrowsBy found' middle forest') :
    GrowsBy (found ++ found') forest forest' where
  keeps path member := second.keeps path (first.keeps path member)
  adds path member := by
    rcases second.adds path member with earlier | ⟨item, isFound, same⟩
    · rcases first.adds path earlier with before | ⟨item, isFound, same⟩
      · exact .inl before
      · exact .inr ⟨item, List.mem_append_left _ isFound, same⟩
    · exact .inr ⟨item, List.mem_append_right _ isFound, same⟩
  reaches distinct apart item member := by
    obtain ⟨distinctFirst, distinctSecond, across⟩ := List.pairwise_append.1 distinct
    rcases List.mem_append.1 member with isFirst | isSecond
    · obtain ⟨path, kept, starts⟩ := first.reaches distinctFirst
        (fun path before other isFound => apart path before other (List.mem_append_left _ isFound))
        item isFirst
      exact ⟨path, second.keeps path kept, starts⟩
    · refine second.reaches distinctSecond ?_ item isSecond
      intro path between other isFound
      rcases first.adds path between with before | ⟨earlier, isEarlier, rfl⟩
      · exact apart path before other (List.mem_append_right _ isFound)
      · exact across earlier isEarlier other isFound

theorem changeSelects (grows : GrowsBy found forest middle)
    (same : forest'.expansions = middle.expansions) : GrowsBy found forest forest' where
  keeps path member := same ▸ grows.keeps path member
  adds path member := grows.adds path (same ▸ member)
  reaches distinct apart item member := same ▸ grows.reaches distinct apart item member

theorem leaf (target : MemberPath) (belowSelect : Bool) (grows : GrowsBy found forest middle) :
    GrowsBy (⟨target, belowSelect⟩ :: found) forest (middle.addExpansion target) where
  keeps path member := Forest.subset_addPath _ _ (grows.keeps path member)
  adds path member := by
    rcases Forest.mem_of_mem_addPath member with earlier | same
    · rcases grows.adds path earlier with before | ⟨item, isFound, same⟩
      · exact .inl before
      · exact .inr ⟨item, List.mem_cons_of_mem _ isFound, same⟩
    · exact .inr ⟨_, List.mem_cons_self, same⟩
  reaches distinct apart item member := by
    obtain ⟨others, distinctFound⟩ := List.pairwise_cons.1 distinct
    rcases List.mem_cons.1 member with rfl | isFound
    · refine ⟨target, Forest.target_mem_addPath ?_, List.prefix_refl _⟩
      intro path between
      rcases grows.adds path between with before | ⟨other, isFound, rfl⟩
      · exact apart path before _ List.mem_cons_self
      · exact (others other isFound).symm
    · obtain ⟨path, kept, starts⟩ := grows.reaches distinctFound
        (fun path before other isFound => apart path before other (List.mem_cons_of_mem _ isFound))
        item isFound
      exact ⟨path, Forest.subset_addPath _ _ kept, starts⟩

theorem inner {target : MemberPath} (belowSelect : Bool) (grows : GrowsBy found forest forest')
    (deeper : ∃ item ∈ found, target <+: item.target) :
    GrowsBy (⟨target, belowSelect⟩ :: found) forest forest' where
  keeps := grows.keeps
  adds path member := by
    rcases grows.adds path member with before | ⟨item, isFound, same⟩
    · exact .inl before
    · exact .inr ⟨item, List.mem_cons_of_mem _ isFound, same⟩
  reaches distinct apart item member := by
    obtain ⟨-, distinctFound⟩ := List.pairwise_cons.1 distinct
    have reached := grows.reaches distinctFound
      fun path before other isFound => apart path before other (List.mem_cons_of_mem _ isFound)
    rcases List.mem_cons.1 member with rfl | isFound
    · obtain ⟨item, isFound, starts⟩ := deeper
      obtain ⟨path, kept, further⟩ := reached item isFound
      exact ⟨path, kept, starts.trans further⟩
    · exact reached item isFound

end Forest.GrowsBy

namespace Resolver

variable {resolver : Resolver} {belowSelect : Bool} {typeName : String} {path : MemberPath}
  {items : List ClauseItem} {found : List ExpandItem} {forest forest' : Forest}

theorem level_eq_ok {allSelected : Bool} {addExpands addSelects : Forest → Outcome Forest}
    (added : resolver.level typeName path allSelected items addExpands addSelects forest =
      .ok forest') :
    ∃ expanded defaulted, addExpands forest = .ok expanded ∧
      defaulted.expansions = expanded.expansions ∧ addSelects defaulted = .ok forest' := by
  simp only [level, Outcome.bind_eq_ok] at added
  obtain ⟨-, -, expanded, expands, added⟩ := added
  split at added
  next =>
    obtain ⟨defaulted, defaults, selects⟩ := Outcome.bind_eq_ok.1 added
    exact ⟨expanded, defaulted, expands, addDefaults_expansions defaults, selects⟩
  next => exact ⟨expanded, expanded, expands, rfl, added⟩

theorem expandsMet_of_expandsFurther {allSelected : Bool}
    (further : expandsFurther (some ⟨allSelected, items⟩) = true)
    (met : resolver.expandsMet belowSelect typeName path items = .ok found) :
    ∃ item ∈ found, path <+: item.target := by
  obtain ⟨item, stands, isExpand⟩ := List.any_eq_true.1 further
  cases item with
  | expand segments nested filter arrangement =>
    obtain ⟨target, element, leads, member, -⟩ := expandsMet_of_mem met stands
    exact ⟨_, member, expandTarget_extends leads⟩
  | path _ _ | reference _ | count _ => simp [ClauseItem.isExpand] at isExpand

mutual

theorem addExpands_grows (resolver : Resolver) (belowSelect : Bool) (items : List ClauseItem)
    {typeName : String} {path : MemberPath} {forest forest' : Forest}
    (added : resolver.addExpands typeName path items forest = .ok forest') :
    ∃ found, resolver.expandsMet belowSelect typeName path items = .ok found ∧
      Forest.GrowsBy found forest forest' := by
  match items with
  | [] =>
    simp only [addExpands, Except.ok.injEq] at added
    exact ⟨[], by simp only [expandsMet], .of_eq (by rw [added])⟩
  | .expand segments none filter arrangement :: rest =>
    simp only [addExpands, Outcome.bind_eq_ok] at added
    obtain ⟨⟨target, element⟩, leads, defaulted, defaults, added⟩ := added
    obtain ⟨others, isOthers, grows⟩ := addExpands_grows resolver belowSelect rest added
    have leaf := (Forest.GrowsBy.of_eq (addDefaults_expansions defaults)).leaf
      target belowSelect
    refine ⟨⟨target, belowSelect⟩ :: others, ?_, leaf.trans grows⟩
    simp only [expandsMet, leads, isOthers, Outcome.ok_bind]
    rfl
  | .expand segments (some ⟨allSelected, inner⟩) filter arrangement :: rest =>
    simp only [addExpands, Outcome.bind_eq_ok] at added
    obtain ⟨⟨target, element⟩, leads, levelled, isLevel, added⟩ := added
    obtain ⟨expanded, defaulted, expands, same, selects⟩ := level_eq_ok isLevel
    obtain ⟨expands', isExpands, growsExpands⟩ := addExpands_grows resolver belowSelect inner expands
    obtain ⟨selects', isSelects, growsSelects⟩ := addSelects_grows resolver belowSelect inner selects
    obtain ⟨others, isOthers, growsOthers⟩ := addExpands_grows resolver belowSelect rest added
    have growsInner := (growsExpands.changeSelects same).trans growsSelects
    refine ⟨⟨target, belowSelect⟩ :: (expands' ++ selects') ++ others, ?_, ?_⟩
    · simp only [expandsMet, leads, isOthers, isExpands, isSelects, Outcome.ok_bind]
      rfl
    · refine Forest.GrowsBy.trans ?_ growsOthers
      split
      -- A target that is expanded further is no leaf: the expansions below it stand for it.
      next further =>
        obtain ⟨item, member, starts⟩ := expandsMet_of_expandsFurther further isExpands
        exact growsInner.inner belowSelect ⟨item, List.mem_append_left _ member, starts⟩
      next => exact growsInner.leaf target belowSelect
  | .path _ _ :: rest | .reference _ :: rest | .count _ :: rest =>
    obtain ⟨found, isFound, grows⟩ :=
      addExpands_grows resolver belowSelect rest (by simpa only [addExpands] using added)
    exact ⟨found, by simpa only [expandsMet] using isFound, grows⟩
termination_by items

theorem addSelects_grows (resolver : Resolver) (belowSelect : Bool) (items : List ClauseItem)
    {typeName : String} {path : MemberPath} {forest forest' : Forest}
    (added : resolver.addSelects typeName path items forest = .ok forest') :
    ∃ found, resolver.selectsMet belowSelect typeName path items = .ok found ∧
      Forest.GrowsBy found forest forest' := by
  match items with
  | [] =>
    simp only [addSelects, Except.ok.injEq] at added
    exact ⟨[], by simp only [selectsMet], .of_eq (by rw [added])⟩
  | .path segments none :: rest =>
    simp only [addSelects, Outcome.bind_eq_ok] at added
    obtain ⟨⟨target, element⟩, leads, added⟩ := added
    -- A selected path adds members, and those of its defaults, but no expansion.
    obtain ⟨selected, same, added⟩ : ∃ selected, selected.expansions = forest.expansions ∧
        resolver.addSelects typeName path rest selected = .ok forest' := by
      cases element with
      | none => exact ⟨forest.addSelect target, rfl, added⟩
      | some element =>
        obtain ⟨selected, defaults, added⟩ := Outcome.bind_eq_ok.1 added
        exact ⟨selected, addDefaults_expansions defaults, added⟩
    obtain ⟨others, isOthers, grows⟩ := addSelects_grows resolver belowSelect rest added
    refine ⟨others, ?_, (Forest.GrowsBy.of_eq same).trans grows⟩
    simp only [selectsMet, leads, isOthers, Outcome.ok_bind]
    cases element <;> rfl
  | .path segments (some ⟨allSelected, inner⟩) :: rest =>
    simp only [addSelects, Outcome.bind_eq_ok] at added
    obtain ⟨⟨target, element⟩, leads, added⟩ := added
    match element with
    | none =>
      obtain ⟨others, isOthers, grows⟩ := addSelects_grows resolver belowSelect rest added
      have same : (forest.addSelect target).expansions = forest.expansions := rfl
      refine ⟨others, ?_, (Forest.GrowsBy.of_eq same).trans grows⟩
      simp only [selectsMet, leads, isOthers, Outcome.ok_bind]
      rfl
    | some element =>
      obtain ⟨levelled, isLevel, added⟩ := Outcome.bind_eq_ok.1 added
      obtain ⟨expanded, defaulted, expands, same, selects⟩ := level_eq_ok isLevel
      obtain ⟨expands', isExpands, growsExpands⟩ := addExpands_grows resolver true inner expands
      obtain ⟨selects', isSelects, growsSelects⟩ := addSelects_grows resolver true inner selects
      obtain ⟨others, isOthers, growsOthers⟩ := addSelects_grows resolver belowSelect rest added
      refine ⟨expands' ++ selects' ++ others, ?_, ?_⟩
      · simp only [selectsMet, leads, isOthers, isExpands, isSelects, Outcome.ok_bind]
        rfl
      · exact ((growsExpands.changeSelects same).trans growsSelects).trans growsOthers
  | .expand _ _ _ _ :: rest | .reference _ :: rest | .count _ :: rest =>
    obtain ⟨found, isFound, grows⟩ :=
      addSelects_grows resolver belowSelect rest (by simpa only [addSelects] using added)
    exact ⟨found, by simpa only [selectsMet] using isFound, grows⟩
termination_by items

end

end Resolver

theorem Forest.build_grows {schema : Schema} {rootType : String} {clause : Option Clause}
    {context : BindingContext} {maxExpandDepth : Nat} {forest : Forest}
    (built : Forest.build schema rootType clause context maxExpandDepth = .ok forest) :
    ∃ found, Resolver.expandItems ⟨schema, context, maxExpandDepth⟩ rootType clause = .ok found ∧
      Forest.GrowsBy found .empty forest := by
  unfold Forest.build at built
  obtain ⟨-, -, built⟩ := Outcome.bind_eq_ok.1 built
  match clause with
  | none => exact ⟨[], rfl, .of_eq (Resolver.addDefaults_expansions built)⟩
  | some ⟨allSelected, items⟩ =>
    obtain ⟨expanded, defaulted, expands, same, selects⟩ := Resolver.level_eq_ok built
    obtain ⟨expands', isExpands, growsExpands⟩ := Resolver.addExpands_grows _ false items expands
    obtain ⟨selects', isSelects, growsSelects⟩ := Resolver.addSelects_grows _ false items selects
    refine ⟨expands' ++ selects', ?_, (growsExpands.changeSelects same).trans growsSelects⟩
    simp only [Resolver.expandItems, isExpands, isSelects, Outcome.ok_bind]
    rfl

end QueryProjection
