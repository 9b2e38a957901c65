import QueryProjection.Expansion.Options

set_option autoImplicit false

namespace QueryProjection.ExpansionSteps

variable {wanted : ExpansionStep → Bool} {before steps list : ExpansionSteps}
  {lists : List ExpansionSteps}

theorem mem_startsEndingIn : list ∈ startsEndingIn wanted before steps ↔
    ∃ start last rest, steps = start ++ last :: rest ∧ wanted last = true ∧
      list = before ++ start.map ExpansionStep.withoutOptions ++ [last] := by
  induction steps generalizing before with
  | nil => simp [startsEndingIn]
  | cons step rest ih =>
    -- Later lists pass this step without its options.
    have here_or_later : list ∈ startsEndingIn wanted before (step :: rest) ↔
        (wanted step = true ∧ list = before ++ [step]) ∨
          list ∈ startsEndingIn wanted (before ++ [step.withoutOptions]) rest := by
      simp only [startsEndingIn]
      split <;> simp_all
    rw [here_or_later, ih]
    constructor
    · rintro (⟨isWanted, rfl⟩ | ⟨start, last, later, rfl, isWanted, rfl⟩)
      · exact ⟨[], step, rest, rfl, isWanted, by simp⟩
      · exact ⟨step :: start, last, later, rfl, isWanted, by simp⟩
    · rintro ⟨start, last, later, same, isWanted, rfl⟩
      cases start with
      | nil =>
        cases same
        exact .inl ⟨isWanted, by simp⟩
      | cons first start =>
        cases same
        exact .inr ⟨start, last, later, rfl, isWanted, by simp⟩

theorem mem_of_mem_distinct {seen : List (List String)} (member : list ∈ distinct seen lists) :
    list ∈ lists := by
  induction lists generalizing seen with
  | nil => simp [distinct] at member
  | cons first rest ih =>
    simp only [distinct] at member
    split at member
    next => exact List.mem_cons_of_mem _ (ih member)
    next =>
      rcases List.mem_cons.1 member with rfl | later
      · exact List.mem_cons_self
      · exact List.mem_cons_of_mem _ (ih later)

theorem distinct_names (seen : List (List String)) (lists : List ExpansionSteps) :
    (distinct seen lists).Pairwise (fun steps other => names steps ≠ names other) ∧
      ∀ steps ∈ distinct seen lists, names steps ∉ seen := by
  induction lists generalizing seen with
  | nil => exact ⟨.nil, by simp [distinct]⟩
  | cons first rest ih =>
    simp only [distinct]
    split
    next => exact ih seen
    next new =>
      obtain ⟨apart, unseen⟩ := ih (names first :: seen)
      constructor
      · apply List.pairwise_cons.2
        refine ⟨fun other member same => ?_, apart⟩
        exact unseen other member (same ▸ List.mem_cons_self)
      · intro other member seenBefore
        rcases List.mem_cons.1 member with rfl | later
        · exact new (by simpa using seenBefore)
        · exact unseen other later (List.mem_cons_of_mem _ seenBefore)

theorem exists_mem_distinct {seen : List (List String)} (member : list ∈ lists)
    (new : names list ∉ seen) : ∃ kept ∈ distinct seen lists, names kept = names list := by
  induction lists generalizing seen with
  | nil => simp at member
  | cons first rest ih =>
    simp only [distinct]
    by_cases isSeen : seen.contains (names first) = true
    · rw [if_pos isSeen]
      rcases List.mem_cons.1 member with rfl | later
      · exact absurd (by simpa using isSeen) new
      · exact ih later new
    · rw [if_neg isSeen]
      by_cases same : names first = names list
      · exact ⟨first, List.mem_cons_self, same⟩
      · rcases List.mem_cons.1 member with rfl | later
        · exact absurd rfl same
        · have stillNew : names list ∉ names first :: seen := by
            simp [Ne.symm same, new]
          obtain ⟨kept, isKept, sameNames⟩ := ih later stillNew
          exact ⟨kept, List.mem_cons_of_mem _ isKept, sameNames⟩

theorem mem_of_mem_listsEndingIn (member : list ∈ listsEndingIn wanted lists) :
    ∃ steps ∈ lists, ∃ start last rest, steps = start ++ last :: rest ∧ wanted last = true ∧
      list = start.map ExpansionStep.withoutOptions ++ [last] := by
  obtain ⟨steps, isList, starts⟩ := List.mem_flatMap.1 (mem_of_mem_distinct member)
  obtain ⟨start, last, rest, same, isWanted, isStart⟩ := mem_startsEndingIn.1 starts
  exact ⟨steps, isList, start, last, rest, same, isWanted, by simpa using isStart⟩

theorem listsEndingIn_names (wanted : ExpansionStep → Bool) (lists : List ExpansionSteps) :
    (listsEndingIn wanted lists).Pairwise fun steps other => names steps ≠ names other :=
  (distinct_names [] _).1

theorem exists_mem_listsEndingIn {start rest : ExpansionSteps} {last : ExpansionStep}
    (member : start ++ last :: rest ∈ lists) (isWanted : wanted last = true) :
    ∃ kept ∈ listsEndingIn wanted lists,
      names kept = names (start.map ExpansionStep.withoutOptions ++ [last]) := by
  apply exists_mem_distinct _ (by simp)
  refine List.mem_flatMap.2 ⟨_, member, mem_startsEndingIn.2 ?_⟩
  exact ⟨start, last, rest, rfl, isWanted, by simp⟩

end QueryProjection.ExpansionSteps
