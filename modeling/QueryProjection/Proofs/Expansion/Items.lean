import QueryProjection.Proofs.Expansion.Options
import QueryProjection.Proofs.Expansion.Placement
import QueryProjection.Proofs.Forest.Paths

set_option autoImplicit false

namespace QueryProjection

open Outcome

def ExpandItem.options (item : ExpandItem) : ExpandOptions :=
  match item.target.getLast? with
  | some last => ⟨last.filter, last.arrangement⟩
  | none => .unrefined

theorem ExpandItem.Distinct.eq_of_names {found : List ExpandItem} {item other : ExpandItem}
    (distinct : Distinct found) (isItem : item ∈ found) (isOther : other ∈ found)
    (same : item.target.names = other.target.names) : item = other := by
  have nodup : (found.map fun item => item.target.names).Nodup := List.pairwise_map.2 distinct
  exact List.inj_on_of_nodup_map nodup isItem isOther same

def Refinements.ofItems (found : List ExpandItem) : Refinements := fun name rest =>
  match found.find? fun item => item.target.names == name :: rest with
  | some item => item.options
  | none => .unrefined

structure Refinements.Places (kind : RefinementKind) (lists : List ExpansionSteps)
    (asked asked' : Refinements) : Prop where
  there : ∀ steps ∈ lists, ∀ name rest, ExpansionSteps.names steps = name :: rest →
    ∀ last ∈ steps.getLast?, asked' name rest = (asked name rest).withStep kind last
  elsewhere : ∀ name rest, (∀ steps ∈ lists, ExpansionSteps.names steps ≠ name :: rest) →
    asked' name rest = asked name rest

theorem Refinements.Places.arrangement_eq {lists : List ExpansionSteps} {asked asked' : Refinements}
    (places : Places .filter lists asked asked') (name : String) (rest : List String) :
    (asked' name rest).arrangement = (asked name rest).arrangement := by
  by_cases isPlaced : ∃ steps ∈ lists, ExpansionSteps.names steps = name :: rest
  · obtain ⟨steps, isList, named⟩ := isPlaced
    cases steps with
    | nil => simp [ExpansionSteps.names] at named
    | cons step later =>
      rw [places.there _ isList name rest named _ (List.getLast_mem_getLast? (by simp))]
      rfl
  · rw [places.elsewhere name rest fun steps isList named => isPlaced ⟨steps, isList, named⟩]

theorem Refinements.unrefined_accepts (kind : RefinementKind) (name : String) (rest : List String) :
    (Refinements.unrefined name rest).Accepts kind := by
  cases kind with
  | filter => exact ⟨rfl, rfl⟩
  | arrangement => exact rfl

namespace Refiner

variable {refiner : Refiner} {parameters : ProjectionParameters} {kind : RefinementKind}
  {tree : IncludeTree} {modelType : String}

theorem applyAll_shaped {lists : List ExpansionSteps} {fuel depth : Nat} {asked : Refinements}
    {source expr refined : Expr}
    (passes : ∀ steps ∈ lists, ExpansionSteps.Passes refiner.mapping modelType steps)
    (covers : ∀ steps ∈ lists, tree.Covers (ExpansionSteps.names steps))
    (distinct : lists.Pairwise fun steps other =>
      ExpansionSteps.names steps ≠ ExpansionSteps.names other)
    (accepts : ∀ steps ∈ lists, ∀ name rest, ExpansionSteps.names steps = name :: rest →
      (asked name rest).Accepts kind)
    (readable : source.Readable)
    (shaped : Shaped refiner parameters fuel tree asked modelType source depth expr)
    (applied : refiner.applyAll kind expr lists = .ok refined) :
    ∃ asked', Shaped refiner parameters fuel tree asked' modelType source depth refined ∧
      Refinements.Places kind lists asked asked' := by
  unfold applyAll at applied
  induction lists generalizing asked expr with
  | nil =>
    simp only [List.foldlM_nil, pure_eq_ok] at applied
    exact ⟨asked, applied ▸ shaped, by simp, fun _ _ _ => rfl⟩
  | cons steps lists ih =>
    simp only [List.foldlM_cons, bind_eq_ok] at applied
    obtain ⟨first, isFirst, applied⟩ := applied
    obtain ⟨passesSteps, passesRest⟩ := List.forall_mem_cons.1 passes
    obtain ⟨coversSteps, coversRest⟩ := List.forall_mem_cons.1 covers
    obtain ⟨apart, distinctRest⟩ := List.pairwise_cons.1 distinct
    obtain ⟨acceptsSteps, acceptsRest⟩ := List.forall_mem_cons.1 accepts
    obtain ⟨step, later, rfl, descended⟩ := applyOne_eq_ok isFirst
    let last := (step :: later).getLast (by simp)
    let name := step.memberName
    let rest := ExpansionSteps.names later
    let new := (asked name rest).withStep kind last
    have isNew : ∀ other ∈ (step :: later).getLast?, new = (asked name rest).withStep kind other := by
      intro other isOther
      rw [List.getLast?_eq_some_getLast (by simp), Option.mem_some_iff] at isOther
      subst isOther
      rfl
    have shapedFirst := descend_shaped later passesSteps coversSteps
      (acceptsSteps name rest rfl) isNew readable shaped descended
    -- The other lists name other members, where nothing has changed.
    have unchanged : ∀ other later, other :: later ≠ name :: rest →
        asked.place (name :: rest) new other later = asked other later := by
      intro other later different
      simp [Refinements.place, different]
    have acceptsLater : ∀ steps ∈ lists, ∀ other later, ExpansionSteps.names steps = other :: later →
        (asked.place (name :: rest) new other later).Accepts kind := by
      intro steps isList other later named
      rw [unchanged other later (named ▸ (apart steps isList).symm)]
      exact acceptsRest steps isList other later named
    obtain ⟨asked', shapedAll, there, elsewhere⟩ :=
      ih passesRest coversRest distinctRest acceptsLater shapedFirst applied
    refine ⟨asked', shapedAll, ?_, ?_⟩
    · refine List.forall_mem_cons.2 ⟨?_, ?_⟩
      · intro other later' named last' isLast
        cases named
        show asked' name rest = (asked name rest).withStep kind last'
        rw [elsewhere name rest fun steps isList same => apart steps isList same.symm]
        simp only [Refinements.place, if_true]
        exact isNew last' isLast
      · intro steps isList other later' named last' isLast
        rw [there steps isList other later' named last' isLast,
          unchanged other later' (named ▸ (apart steps isList).symm)]
    · intro other later' absent
      obtain ⟨notFirst, absent⟩ := List.forall_mem_cons.1 absent
      rw [elsewhere other later' absent, unchanged other later' (Ne.symm notFirst)]

theorem filters_shaped {lists : List ExpansionSteps} {fuel depth : Nat} {source expr refined : Expr}
    (passes : ∀ steps ∈ lists, ExpansionSteps.Passes refiner.mapping modelType steps)
    (covers : ∀ steps ∈ lists, tree.Covers (ExpansionSteps.names steps))
    (distinct : lists.Pairwise fun steps other =>
      ExpansionSteps.names steps ≠ ExpansionSteps.names other)
    (readable : source.Readable)
    (shaped : Shaped refiner parameters fuel tree .unrefined modelType source depth expr)
    (applied : refiner.applyAll .filter expr lists = .ok refined) :
    ∃ asked, Shaped refiner parameters fuel tree asked modelType source depth refined ∧
      Refinements.Places .filter lists .unrefined asked ∧
      ∀ name rest, (asked name rest).Accepts .arrangement := by
  obtain ⟨asked, shapedRefined, places⟩ := applyAll_shaped passes covers distinct
    (fun _ _ name rest _ => Refinements.unrefined_accepts .filter name rest) readable shaped applied
  exact ⟨asked, shapedRefined, places, places.arrangement_eq⟩

end Refiner

section Items

variable {resolver : Resolver} {rootType : String} {clause : Option Clause}
  {found : List ExpandItem} {forest : Forest} {kind : RefinementKind} {item : ExpandItem}
  {before : MemberPath} {last : PathStep} {asked asked' : Refinements} {name : String}
  {rest : List String}

def MemberPath.stepsTo (before : MemberPath) (last : PathStep) : ExpansionSteps :=
  before.map (fun step => (ExpansionStep.ofPathStep step).withoutOptions) ++
    [ExpansionStep.ofPathStep last]

theorem MemberPath.names_stepsTo (before : MemberPath) (last : PathStep) :
    ExpansionSteps.names (before.stepsTo last) = MemberPath.names (before ++ [last]) := by
  simp [stepsTo, ExpansionSteps.names, MemberPath.names, ExpansionStep.ofPathStep,
    ExpansionStep.withoutOptions]

theorem carries_of_plain (plain : last.IsPlain) :
    Refiner.carries kind (ExpansionStep.ofPathStep last) = false := by
  obtain ⟨noFilter, noArrangement⟩ := plain
  cases kind with
  | filter =>
    simp [Refiner.carries, ExpansionStep.hasFilter, ExpansionStep.ofPathStep, noFilter]
  | arrangement =>
    simp [Refiner.carries, ExpansionStep.hasArrangement, ExpansionStep.ofPathStep, noArrangement]

def Forest.listsOf (forest : Forest) (kind : RefinementKind) : List ExpansionSteps :=
  ExpansionSteps.listsEndingIn (Refiner.carries kind) (ExpansionSteps.ofForest forest)

theorem item_of_steps (isFound : resolver.expandItems rootType clause = .ok found)
    (grows : Forest.GrowsBy found .empty forest) {steps : ExpansionSteps}
    (isList : steps ∈ forest.listsOf kind) :
    ∃ item ∈ found, ∃ (before : MemberPath) (last : PathStep), item.target = before ++ [last] ∧
      Refiner.carries kind (.ofPathStep last) = true ∧ steps = before.stepsTo last := by
  obtain ⟨list, isPath, start, last, rest, shape, carries, rfl⟩ :=
    ExpansionSteps.mem_of_mem_listsEndingIn isList
  obtain ⟨path, expanded, rfl⟩ := List.mem_map.1 isPath
  obtain ⟨before, more, rfl, rfl, isRest⟩ := List.map_eq_append_iff.1 shape
  obtain ⟨lastStep, later, rfl, rfl, rfl⟩ := List.map_eq_cons_iff.1 isRest
  rcases grows.adds _ expanded with outside | ⟨item, isItem, same⟩
  · simp [Forest.empty] at outside
  · have starts : before ++ [lastStep] <+: item.target := by
      rw [same]
      exact ⟨later, by simp⟩
    rcases Resolver.options_of_expandItems isFound isItem starts with plain | ⟨other, isOther, target⟩
    · rw [carries_of_plain plain] at carries
      contradiction
    · exact ⟨other, isOther, before, lastStep, target, carries,
        by simp [MemberPath.stepsTo, Function.comp_def]⟩

theorem steps_of_item (isFound : resolver.expandItems rootType clause = .ok found)
    (grows : Forest.GrowsBy found .empty forest) (distinct : ExpandItem.Distinct found)
    (isItem : item ∈ found) (target : item.target = before ++ [last])
    (carries : Refiner.carries kind (.ofPathStep last) = true) :
    before.stepsTo last ∈ forest.listsOf kind := by
  obtain ⟨path, expanded, more, whole⟩ := grows.reaches distinct (by simp [Forest.empty]) item isItem
  have isPath : before.map ExpansionStep.ofPathStep ++
      ExpansionStep.ofPathStep last :: more.map ExpansionStep.ofPathStep ∈
        ExpansionSteps.ofForest forest := by
    refine List.mem_map.2 ⟨path, expanded, ?_⟩
    rw [← whole, target]
    simp
  obtain ⟨steps, isList, named⟩ := ExpansionSteps.exists_mem_listsEndingIn isPath carries
  obtain ⟨other, isOther, before', last', target', -, rfl⟩ := item_of_steps isFound grows isList
  -- The list may come from another path, but only one item leads to these members.
  have sameNames : item.target.names = other.target.names := by
    rw [target, target', ← MemberPath.names_stepsTo, ← MemberPath.names_stepsTo, named]
    simp [MemberPath.stepsTo, Function.comp_def]
  have same := distinct.eq_of_names isItem isOther sameNames
  subst same
  rw [target] at target'
  obtain ⟨rfl, lasts⟩ := List.append_inj' target' rfl
  cases lasts
  exact isList

theorem Refinements.Places.at_item (isFound : resolver.expandItems rootType clause = .ok found)
    (grows : Forest.GrowsBy found .empty forest) (distinct : ExpandItem.Distinct found)
    (places : Refinements.Places kind (forest.listsOf kind) asked asked') (isItem : item ∈ found)
    (target : item.target = before ++ [last]) (named : item.target.names = name :: rest) :
    asked' name rest =
      if Refiner.carries kind (.ofPathStep last) = true then
        (asked name rest).withStep kind (.ofPathStep last)
      else asked name rest := by
  split
  next carries =>
    apply places.there _ (steps_of_item isFound grows distinct isItem target carries)
    · rw [MemberPath.names_stepsTo, ← target, named]
    · simp [MemberPath.stepsTo]
  next without =>
    apply places.elsewhere
    intro steps isList same
    obtain ⟨other, isOther, before', last', target', carries, rfl⟩ := item_of_steps isFound grows isList
    rw [MemberPath.names_stepsTo, ← target', ← named] at same
    cases distinct.eq_of_names isItem isOther same.symm
    rw [target] at target'
    obtain ⟨-, lasts⟩ := List.append_inj' target' rfl
    cases lasts
    exact without carries

theorem Refinements.Places.off_items (isFound : resolver.expandItems rootType clause = .ok found)
    (grows : Forest.GrowsBy found .empty forest)
    (places : Refinements.Places kind (forest.listsOf kind) asked asked')
    (absent : ∀ item ∈ found, item.target.names ≠ name :: rest) :
    asked' name rest = asked name rest := by
  apply places.elsewhere
  intro steps isList same
  obtain ⟨item, isItem, before, last, target, -, rfl⟩ := item_of_steps isFound grows isList
  rw [MemberPath.names_stepsTo, ← target] at same
  exact absent item isItem same

theorem Refinements.places_ofItems {filtered : Refinements}
    (isFound : resolver.expandItems rootType clause = .ok found)
    (grows : Forest.GrowsBy found .empty forest) (distinct : ExpandItem.Distinct found)
    (filters : Refinements.Places .filter (forest.listsOf .filter) .unrefined filtered)
    (arrangements : Refinements.Places .arrangement (forest.listsOf .arrangement) filtered asked) :
    asked = .ofItems found := by
  funext name rest
  unfold ofItems
  split
  next item isFirst =>
    have isItem := List.mem_of_find?_eq_some isFirst
    have named : item.target.names = name :: rest := by
      simpa using List.find?_some isFirst
    obtain ⟨before, last, element, filter, arrangement, target, -⟩ :=
      Resolver.expandItems_last isFound isItem
    rw [arrangements.at_item isFound grows distinct isItem target named,
      filters.at_item isFound grows distinct isItem target named]
    simp only [ExpandItem.options, target, List.getLast?_append, List.getLast?_singleton,
      Option.some_or]
    cases filter <;> by_cases empty : arrangement.isEmpty <;>
      simp [Refiner.carries, ExpansionStep.hasFilter, ExpansionStep.hasArrangement,
        ExpansionStep.ofPathStep, Resolver.optionsOf, empty, Refinements.unrefined,
        ExpandOptions.unrefined, ExpandOptions.withStep]
  next absent =>
    have noItem : ∀ item ∈ found, item.target.names ≠ name :: rest := by
      intro item isItem same
      simpa [same] using List.find?_eq_none.1 absent item isItem
    rw [arrangements.off_items isFound grows noItem, filters.off_items isFound grows noItem]
    rfl

end Items

end QueryProjection
