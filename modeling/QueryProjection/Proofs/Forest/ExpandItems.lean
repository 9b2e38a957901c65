import QueryProjection.Proofs.Forest.Walk

set_option autoImplicit false

namespace QueryProjection

/-- An expand item with its path from the root; the last step has the options of the item. -/
structure ExpandItem where
  target : MemberPath
  belowSelect : Bool

namespace Resolver

mutual

def expandsMet (resolver : Resolver) (belowSelect : Bool) (typeName : String)
    (path : MemberPath) : List ClauseItem → Outcome (List ExpandItem)
  | [] => .ok []
  | .expand segments nested filter arrangement :: rest => do
      let (target, element) ←
        resolver.expandTarget path typeName segments filter arrangement
      let others ← expandsMet resolver belowSelect typeName path rest
      match nested with
      | none => return ⟨target, belowSelect⟩ :: others
      | some ⟨_, items⟩ => do
          let expands ← expandsMet resolver belowSelect element target items
          let selects ← selectsMet resolver belowSelect element target items
          return ⟨target, belowSelect⟩ :: (expands ++ selects) ++ others
  | _ :: rest => expandsMet resolver belowSelect typeName path rest

def selectsMet (resolver : Resolver) (belowSelect : Bool) (typeName : String)
    (path : MemberPath) : List ClauseItem → Outcome (List ExpandItem)
  | [] => .ok []
  | .path segments nested :: rest => do
      let (target, element) ← resolver.selectTarget path typeName segments
      let others ← selectsMet resolver belowSelect typeName path rest
      match element, nested with
      | some element, some ⟨_, items⟩ => do
          let expands ← expandsMet resolver true element target items
          let selects ← selectsMet resolver true element target items
          return expands ++ selects ++ others
      | _, _ => return others
  | _ :: rest => selectsMet resolver belowSelect typeName path rest

end

/-- All expand items of a request, but for those in the clauses of members that are not complex. -/
def expandItems (resolver : Resolver) (rootType : String) :
    Option Clause → Outcome (List ExpandItem)
  | none => .ok []
  | some ⟨_, items⟩ => do
      let expands ← resolver.expandsMet false rootType [] items
      return expands ++ (← resolver.selectsMet false rootType [] items)

inductive Meets (resolver : Resolver) :
    Bool → String → MemberPath → List ClauseItem → ExpandItem → Prop where
  | here {below : Bool} {typeName element : String} {path target : MemberPath}
      {items : List ClauseItem} {segments : List String} {nested : Option Clause}
      {filter : Option Filter} {arrangement : Arrangement}
      (stands : .expand segments nested filter arrangement ∈ items)
      (leads : resolver.expandTarget path typeName segments filter arrangement =
        .ok (target, element)) : Meets resolver below typeName path items ⟨target, below⟩
  | belowExpand {below : Bool} {typeName element : String} {path target : MemberPath}
      {items inner : List ClauseItem} {segments : List String} {allSelected : Bool}
      {filter : Option Filter} {arrangement : Arrangement} {item : ExpandItem}
      (stands : .expand segments (some ⟨allSelected, inner⟩) filter arrangement ∈ items)
      (leads : resolver.expandTarget path typeName segments filter arrangement =
        .ok (target, element))
      (met : Meets resolver below element target inner item) :
      Meets resolver below typeName path items item
  | belowSelect {below : Bool} {typeName element : String} {path target : MemberPath}
      {items inner : List ClauseItem} {segments : List String} {allSelected : Bool}
      {item : ExpandItem} (stands : .path segments (some ⟨allSelected, inner⟩) ∈ items)
      (leads : resolver.selectTarget path typeName segments = .ok (target, some element))
      (met : Meets resolver true element target inner item) :
      Meets resolver below typeName path items item

theorem expandsMet_of_mem {resolver : Resolver} {below : Bool} {typeName : String}
    {path : MemberPath} {items : List ClauseItem} {found : List ExpandItem} {segments : List String}
    {nested : Option Clause} {filter : Option Filter} {arrangement : Arrangement}
    (met : resolver.expandsMet below typeName path items = .ok found)
    (stands : .expand segments nested filter arrangement ∈ items) :
    ∃ target element, resolver.expandTarget path typeName segments filter arrangement =
        .ok (target, element) ∧ ⟨target, below⟩ ∈ found ∧
      ∀ allSelected inner, nested = some ⟨allSelected, inner⟩ →
        ∃ expands selects, resolver.expandsMet below element target inner = .ok expands ∧
          resolver.selectsMet below element target inner = .ok selects ∧
          expands ++ selects ⊆ found := by
  induction items generalizing found with
  | nil => simp at stands
  | cons first rest ih =>
    rcases List.mem_cons.1 stands with rfl | later
    · simp only [expandsMet, Outcome.bind_eq_ok] at met
      obtain ⟨⟨target, element⟩, leads, others, -, met⟩ := met
      refine ⟨target, element, leads, ?_⟩
      cases nested with
      | none =>
        rw [← Outcome.pure_eq_ok.1 met]
        simp
      | some clause =>
        simp only [Outcome.bind_eq_ok, Outcome.pure_eq_ok] at met
        obtain ⟨expands, isExpands, selects, isSelects, rfl⟩ := met
        refine ⟨by simp, ?_⟩
        rintro allSelected inner same
        cases same
        refine ⟨expands, selects, isExpands, isSelects, ?_⟩
        intro item member
        simp only [List.cons_append, List.mem_cons, List.mem_append] at member ⊢
        exact .inr (.inl member)
    · -- What is met in the rest is part of what is met, whatever the first item is.
      obtain ⟨others, met, inside⟩ : ∃ others,
          resolver.expandsMet below typeName path rest = .ok others ∧ others ⊆ found := by
        cases first with
        | expand segments nested filter arrangement =>
          simp only [expandsMet, Outcome.bind_eq_ok] at met
          obtain ⟨⟨target, element⟩, -, others, isOthers, met⟩ := met
          refine ⟨others, isOthers, ?_⟩
          split at met
          next =>
            rw [← Outcome.pure_eq_ok.1 met]
            exact List.subset_cons_self _ _
          next =>
            simp only [Outcome.bind_eq_ok, Outcome.pure_eq_ok] at met
            obtain ⟨expands, -, selects, -, rfl⟩ := met
            exact List.subset_append_right _ _
        | path _ _ | reference _ | count _ =>
          exact ⟨found, by simpa only [expandsMet] using met, List.Subset.refl _⟩
      obtain ⟨target, element, leads, member, deeper⟩ := ih met later
      refine ⟨target, element, leads, inside member, ?_⟩
      intro allSelected inner same
      obtain ⟨expands, selects, isExpands, isSelects, within⟩ := deeper allSelected inner same
      exact ⟨expands, selects, isExpands, isSelects, fun item member => inside (within member)⟩

theorem selectsMet_of_mem {resolver : Resolver} {below : Bool} {typeName element : String}
    {path target : MemberPath} {items inner : List ClauseItem} {found : List ExpandItem}
    {segments : List String} {allSelected : Bool}
    (met : resolver.selectsMet below typeName path items = .ok found)
    (stands : .path segments (some ⟨allSelected, inner⟩) ∈ items)
    (leads : resolver.selectTarget path typeName segments = .ok (target, some element)) :
    ∃ expands selects, resolver.expandsMet true element target inner = .ok expands ∧
      resolver.selectsMet true element target inner = .ok selects ∧
      expands ++ selects ⊆ found := by
  induction items generalizing found with
  | nil => simp at stands
  | cons first rest ih =>
    rcases List.mem_cons.1 stands with rfl | later
    · simp only [selectsMet, leads, Outcome.bind_eq_ok, Outcome.pure_eq_ok, Outcome.ok_bind] at met
      obtain ⟨others, -, expands, isExpands, selects, isSelects, rfl⟩ := met
      exact ⟨expands, selects, isExpands, isSelects, List.subset_append_left _ _⟩
    · obtain ⟨others, met, inside⟩ : ∃ others,
          resolver.selectsMet below typeName path rest = .ok others ∧ others ⊆ found := by
        cases first with
        | path segments nested =>
          simp only [selectsMet, Outcome.bind_eq_ok] at met
          obtain ⟨⟨target, element⟩, -, others, isOthers, met⟩ := met
          refine ⟨others, isOthers, ?_⟩
          split at met
          next =>
            simp only [Outcome.bind_eq_ok, Outcome.pure_eq_ok] at met
            obtain ⟨expands, -, selects, -, rfl⟩ := met
            exact List.subset_append_right _ _
          next =>
            rw [← Outcome.pure_eq_ok.1 met]
            exact List.Subset.refl _
        | expand _ _ _ _ | reference _ | count _ =>
          exact ⟨found, by simpa only [selectsMet] using met, List.Subset.refl _⟩
      obtain ⟨expands, selects, isExpands, isSelects, within⟩ := ih met later
      exact ⟨expands, selects, isExpands, isSelects, fun item member => inside (within member)⟩

theorem Meets.mem {resolver : Resolver} {below : Bool} {typeName : String} {path : MemberPath}
    {items : List ClauseItem} {item : ExpandItem}
    (meets : Meets resolver below typeName path items item) {expands selects : List ExpandItem}
    (isExpands : resolver.expandsMet below typeName path items = .ok expands)
    (isSelects : resolver.selectsMet below typeName path items = .ok selects) :
    item ∈ expands ++ selects := by
  induction meets generalizing expands selects with
  | here stands leads =>
    obtain ⟨target, element, leads', member, -⟩ := expandsMet_of_mem isExpands stands
    rw [leads] at leads'
    cases leads'
    exact List.mem_append_left _ member
  | belowExpand stands leads met ih =>
    obtain ⟨target, element, leads', -, deeper⟩ := expandsMet_of_mem isExpands stands
    rw [leads] at leads'
    cases leads'
    obtain ⟨expands', selects', isExpands', isSelects', within⟩ := deeper _ _ rfl
    exact List.mem_append_left _ (within (ih isExpands' isSelects'))
  | belowSelect stands leads met ih =>
    obtain ⟨expands', selects', isExpands', isSelects', within⟩ :=
      selectsMet_of_mem isSelects stands leads
    exact List.mem_append_right _ (within (ih isExpands' isSelects'))

theorem Meets.mono {resolver : Resolver} {below : Bool} {typeName : String} {path : MemberPath}
    {items items' : List ClauseItem} {item : ExpandItem}
    (meets : Meets resolver below typeName path items item) (more : items ⊆ items') :
    Meets resolver below typeName path items' item := by
  cases meets with
  | here stands leads => exact .here (more stands) leads
  | belowExpand stands leads met => exact .belowExpand (more stands) leads met
  | belowSelect stands leads met => exact .belowSelect (more stands) leads met

mutual

theorem meets_of_expandsMet {resolver : Resolver} (items : List ClauseItem) {below : Bool}
    {typeName : String} {path : MemberPath} {found : List ExpandItem} {item : ExpandItem}
    (met : resolver.expandsMet below typeName path items = .ok found) (member : item ∈ found) :
    Meets resolver below typeName path items item := by
  match items with
  | [] =>
    simp only [expandsMet, Except.ok.injEq] at met
    simp [← met] at member
  | .expand segments none filter arrangement :: rest =>
    simp only [expandsMet, Outcome.bind_eq_ok, Outcome.pure_eq_ok] at met
    obtain ⟨⟨target, element⟩, leads, others, later, rfl⟩ := met
    rcases List.mem_cons.1 member with rfl | isOther
    · exact .here List.mem_cons_self leads
    · exact (meets_of_expandsMet rest later isOther).mono (List.subset_cons_self _ _)
  | .expand segments (some ⟨allSelected, inner⟩) filter arrangement :: rest =>
    simp only [expandsMet, Outcome.bind_eq_ok, Outcome.pure_eq_ok] at met
    obtain ⟨⟨target, element⟩, leads, others, later, expands, isExpands, selects, isSelects,
      rfl⟩ := met
    simp only [List.cons_append, List.mem_cons, List.mem_append] at member
    rcases member with rfl | (isExpand | isSelect) | isOther
    · exact .here List.mem_cons_self leads
    · exact .belowExpand List.mem_cons_self leads (meets_of_expandsMet inner isExpands isExpand)
    · exact .belowExpand List.mem_cons_self leads (meets_of_selectsMet inner isSelects isSelect)
    · exact (meets_of_expandsMet rest later isOther).mono (List.subset_cons_self _ _)
  | .path _ _ :: rest | .reference _ :: rest | .count _ :: rest =>
    have later := meets_of_expandsMet rest (by simpa only [expandsMet] using met) member
    exact later.mono (List.subset_cons_self _ _)
termination_by items

theorem meets_of_selectsMet {resolver : Resolver} (items : List ClauseItem) {below : Bool}
    {typeName : String} {path : MemberPath} {found : List ExpandItem} {item : ExpandItem}
    (met : resolver.selectsMet below typeName path items = .ok found) (member : item ∈ found) :
    Meets resolver below typeName path items item := by
  match items with
  | [] =>
    simp only [selectsMet, Except.ok.injEq] at met
    simp [← met] at member
  | .path segments none :: rest =>
    simp only [selectsMet, Outcome.bind_eq_ok] at met
    obtain ⟨⟨target, element⟩, -, others, later, met⟩ := met
    have same : others = found := by
      cases element <;> exact Outcome.pure_eq_ok.1 met
    exact (meets_of_selectsMet rest later (same ▸ member)).mono (List.subset_cons_self _ _)
  | .path segments (some ⟨allSelected, inner⟩) :: rest =>
    simp only [selectsMet, Outcome.bind_eq_ok] at met
    obtain ⟨⟨target, element⟩, leads, others, later, met⟩ := met
    match element with
    | none =>
      rw [← Outcome.pure_eq_ok.1 met] at member
      exact (meets_of_selectsMet rest later member).mono (List.subset_cons_self _ _)
    | some element =>
      simp only [Outcome.bind_eq_ok, Outcome.pure_eq_ok] at met
      obtain ⟨expands, isExpands, selects, isSelects, rfl⟩ := met
      simp only [List.mem_append] at member
      rcases member with (isExpand | isSelect) | isOther
      · exact .belowSelect List.mem_cons_self leads (meets_of_expandsMet inner isExpands isExpand)
      · exact .belowSelect List.mem_cons_self leads (meets_of_selectsMet inner isSelects isSelect)
      · exact (meets_of_selectsMet rest later isOther).mono (List.subset_cons_self _ _)
  | .expand _ _ _ _ :: rest | .reference _ :: rest | .count _ :: rest =>
    have later := meets_of_selectsMet rest (by simpa only [selectsMet] using met) member
    exact later.mono (List.subset_cons_self _ _)
termination_by items

end

theorem Meets.flagged {resolver : Resolver} {below : Bool} {typeName : String} {path : MemberPath}
    {items : List ClauseItem} {item : ExpandItem}
    (meets : Meets resolver below typeName path items item) (flag : below = true) :
    item.belowSelect = true := by
  induction meets with
  | here stands leads => exact flag
  | belowExpand stands leads met ih => exact ih flag
  | belowSelect stands leads met ih => exact ih rfl

theorem expandTarget_extends {resolver : Resolver} {path target : MemberPath}
    {typeName element : String} {segments : List String} {filter : Option Filter}
    {arrangement : Arrangement}
    (leads : resolver.expandTarget path typeName segments filter arrangement =
      .ok (target, element)) : path <+: target := by
  obtain ⟨-, before, last, same, -⟩ := expandTarget_eq_ok leads
  rw [same, List.append_assoc]
  exact List.prefix_append _ _

theorem selectTarget_extends {resolver : Resolver} {path target : MemberPath} {typeName : String}
    {segments : List String} {element : Option String}
    (leads : resolver.selectTarget path typeName segments = .ok (target, element)) :
    path <+: target := by
  obtain ⟨added, -, same, -⟩ := selectTarget_eq_ok leads
  rw [same]
  exact List.prefix_append _ _

theorem Meets.extends_path {resolver : Resolver} {below : Bool} {typeName : String}
    {path : MemberPath} {items : List ClauseItem} {item : ExpandItem}
    (meets : Meets resolver below typeName path items item) : path <+: item.target := by
  induction meets with
  | here stands leads => exact expandTarget_extends leads
  | belowExpand stands leads met ih => exact (expandTarget_extends leads).trans ih
  | belowSelect stands leads met ih => exact (selectTarget_extends leads).trans ih

theorem Meets.length_le {resolver : Resolver} {below : Bool} {typeName : String}
    {path : MemberPath} {items : List ClauseItem} {item : ExpandItem}
    (meets : Meets resolver below typeName path items item) :
    item.target.length ≤ resolver.maxExpandDepth := by
  induction meets with
  | here stands leads => exact (expandTarget_eq_ok leads).1
  | belowExpand stands leads met ih => exact ih
  | belowSelect stands leads met ih => exact ih

theorem mem_of_starts {path start before : MemberPath} {step : PathStep}
    (starts : start ++ [step] <+: path ++ before) (later : path.length ≤ start.length) :
    step ∈ before := by
  have within : path <+: start ++ [step] :=
    List.prefix_of_prefix_length_le (List.prefix_append path before) starts (by simp; omega)
  obtain ⟨rest, same⟩ := List.prefix_of_prefix_length_le within (List.prefix_append _ _) later
  rw [← same, List.append_assoc, List.prefix_append_right_inj] at starts
  exact starts.subset (by simp)

theorem expandTarget_options {resolver : Resolver} {path target start : MemberPath}
    {typeName element : String} {segments : List String} {filter : Option Filter}
    {arrangement : Arrangement} {step : PathStep}
    (leads : resolver.expandTarget path typeName segments filter arrangement = .ok (target, element))
    (starts : start ++ [step] <+: target) (later : path.length ≤ start.length) :
    step.IsPlain ∨ start ++ [step] = target := by
  obtain ⟨-, before, last, rfl, -, plain, -⟩ := expandTarget_eq_ok leads
  rcases List.prefix_concat_iff.1 starts with whole | earlier
  · exact .inr whole
  · exact .inl (plain step (List.mem_append_left _ (mem_of_starts earlier later)))

theorem Meets.options {resolver : Resolver} {below : Bool} {typeName : String}
    {path start : MemberPath} {items : List ClauseItem} {item : ExpandItem} {step : PathStep}
    (meets : Meets resolver below typeName path items item)
    (starts : start ++ [step] <+: item.target) (later : path.length ≤ start.length) :
    step.IsPlain ∨
      ∃ other, Meets resolver below typeName path items other ∧ other.target = start ++ [step] := by
  induction meets with
  | here stands leads =>
    rcases expandTarget_options leads starts later with plain | whole
    · exact .inl plain
    · exact .inr ⟨_, .here stands leads, whole.symm⟩
  | @belowExpand _ _ _ path target _ _ _ _ _ _ item stands leads met ih =>
    by_cases deeper : target.length ≤ start.length
    · rcases ih starts deeper with plain | ⟨other, isMet, same⟩
      · exact .inl plain
      · exact .inr ⟨other, .belowExpand stands leads isMet, same⟩
    · have earlier : start ++ [step] <+: target :=
        List.prefix_of_prefix_length_le starts met.extends_path (by simp; omega)
      rcases expandTarget_options leads earlier later with plain | whole
      · exact .inl plain
      · exact .inr ⟨_, .here stands leads, whole.symm⟩
  | @belowSelect _ _ _ path target _ _ _ _ item stands leads met ih =>
    by_cases deeper : target.length ≤ start.length
    · rcases ih starts deeper with plain | ⟨other, isMet, same⟩
      · exact .inl plain
      · exact .inr ⟨other, .belowSelect stands leads isMet, same⟩
    · have earlier : start ++ [step] <+: target :=
        List.prefix_of_prefix_length_le starts met.extends_path (by simp; omega)
      obtain ⟨before, -, rfl, -, plain, -⟩ := selectTarget_eq_ok leads
      exact .inl (plain step (mem_of_starts earlier later))

theorem meets_of_expandItems {resolver : Resolver} {rootType : String} {allSelected : Bool}
    {items : List ClauseItem} {found : List ExpandItem} {item : ExpandItem}
    (isFound : resolver.expandItems rootType (some ⟨allSelected, items⟩) = .ok found)
    (member : item ∈ found) : Meets resolver false rootType [] items item := by
  simp only [expandItems, Outcome.bind_eq_ok, Outcome.pure_eq_ok] at isFound
  obtain ⟨expands, isExpands, selects, isSelects, rfl⟩ := isFound
  rcases List.mem_append.1 member with isExpand | isSelect
  · exact meets_of_expandsMet items isExpands isExpand
  · exact meets_of_selectsMet items isSelects isSelect

theorem Meets.mem_expandItems {resolver : Resolver} {rootType : String} {allSelected : Bool}
    {items : List ClauseItem} {found : List ExpandItem} {item : ExpandItem}
    (meets : Meets resolver false rootType [] items item)
    (isFound : resolver.expandItems rootType (some ⟨allSelected, items⟩) = .ok found) :
    item ∈ found := by
  simp only [expandItems, Outcome.bind_eq_ok, Outcome.pure_eq_ok] at isFound
  obtain ⟨expands, isExpands, selects, isSelects, rfl⟩ := isFound
  exact meets.mem isExpands isSelects

theorem options_of_expandItems {resolver : Resolver} {rootType : String} {clause : Option Clause}
    {found : List ExpandItem} {item : ExpandItem} {start : MemberPath} {step : PathStep}
    (isFound : resolver.expandItems rootType clause = .ok found) (member : item ∈ found)
    (starts : start ++ [step] <+: item.target) :
    step.IsPlain ∨ ∃ other ∈ found, other.target = start ++ [step] := by
  match clause with
  | none =>
    simp only [expandItems, Except.ok.injEq] at isFound
    simp [← isFound] at member
  | some ⟨allSelected, items⟩ =>
    rcases (meets_of_expandItems isFound member).options starts (Nat.zero_le _) with
      plain | ⟨other, isMet, same⟩
    · exact .inl plain
    · exact .inr ⟨other, isMet.mem_expandItems isFound, same⟩

end Resolver

end QueryProjection
