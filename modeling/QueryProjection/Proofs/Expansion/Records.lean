import QueryProjection.Proofs.Evaluation.ReservedNames
import QueryProjection.Proofs.Expansion.Items
import QueryProjection.Proofs.Expansion.Reading
import QueryProjection.Proofs.Forest.Includes
import QueryProjection.Proofs.Forest.WellFormed
import QueryProjection.Proofs.Mapping.Projection
import QueryProjection.Run.Projection

set_option autoImplicit false

namespace QueryProjection

open Outcome Evaluation

/-- All rows of a source, projected to a model type with the options of a clause in place. -/
def Mapping.expandedQuery (mapping : Mapping) (context : BindingContext) (maxExpandDepth : Nat)
    (parameters : ProjectionParameters) (sourceType modelType : String) (clause : Option Clause) :
    Outcome Expr := do
  let forest ← Forest.build mapping.schema modelType clause context maxExpandDepth
  let includes ← Include.ofForest mapping.schema modelType forest
  let projection ← mapping.project sourceType modelType includes parameters
  let refiner : Refiner := ⟨mapping, context⟩
  let lists := ExpansionSteps.ofForest forest
  let filtered ← refiner.applyAll .filter ((Expr.allRows sourceType).selected projection)
    (ExpansionSteps.endingInFilter lists)
  let arranged ← refiner.applyAll .arrangement filtered (ExpansionSteps.endingInArrangement lists)
  return arranged.withoutReservedNames

def Mapping.includedTree (mapping : Mapping) (context : BindingContext) (maxExpandDepth : Nat)
    (modelType : String) (clause : Option Clause) : Outcome IncludeTree := do
  let forest ← Forest.build mapping.schema modelType clause context maxExpandDepth
  Mapping.includeTree (← Include.ofForest mapping.schema modelType forest)

/-- No other declaration takes the place of a member on the way to an expand item. -/
def ExpandItem.Listed (schema : Schema) (item : ExpandItem) : Prop :=
  ∀ step ∈ item.target, step.ListedOn schema step.declaringType

/-- What an expand item leads to is read from the source. -/
def ExpandItem.ReadFromSource (mapping : Mapping) (item : ExpandItem) : Prop :=
  ∀ last ∈ item.target.getLast?,
    (mapping.mapPath? last.declaringType last.memberName).isSome = true

section Stages

variable {mapping : Mapping} {context : BindingContext} {maxExpandDepth : Nat}
  {modelType : String} {clause : Option Clause} {found : List ExpandItem} {forest : Forest}
  {includes : List Lambda} {tree : IncludeTree} {kind : RefinementKind} {steps : ExpansionSteps}

theorem PathStep.leadsOn {schema : Schema} {typeName element : String} {step : PathStep}
    (resolves : step.ResolvesOn schema typeName) (listed : step.ListedOn schema step.declaringType)
    (leads : step.element? = some element) (options : ExpansionStep)
    (sameStep : options.withoutOptions = (ExpansionStep.ofPathStep step).withoutOptions) :
    options.LeadsOn schema typeName element := by
  obtain ⟨declared, -⟩ := resolves
  obtain ⟨-, isListed⟩ := listed
  simp only [ExpansionStep.withoutOptions, ExpansionStep.ofPathStep, ExpansionStep.mk.injEq,
    and_true] at sameStep
  obtain ⟨sameName, sameType, sameMember⟩ := sameStep
  refine ⟨sameType.trans declared, ?_, ?_⟩
  · rw [sameName, sameMember, ← declared]
    exact isListed
  · rw [sameMember]
    exact leads

theorem MemberPath.passes_stepsTo {typeName element : String} {before : MemberPath} {last : PathStep}
    (walk : Walk mapping.schema typeName (before ++ [last]))
    (listed : ∀ step ∈ before ++ [last], step.ListedOn mapping.schema step.declaringType)
    (leads : last.element? = some element)
    (mapped : (mapping.mapPath? last.declaringType last.memberName).isSome = true) :
    (before.stepsTo last).Passes mapping typeName := by
  induction before generalizing typeName with
  | nil =>
    have resolves := walk.first
    have isListed := listed last (by simp)
    rw [resolves.1] at mapped
    exact .last (PathStep.leadsOn resolves isListed leads _ rfl) mapped
  | cons step rest ih =>
    have listedRest : ∀ step ∈ rest ++ [last], step.ListedOn mapping.schema step.declaringType :=
      fun step member => listed step (List.mem_cons_of_mem _ member)
    have isListed := listed step List.mem_cons_self
    cases rest with
    | nil =>
      cases walk with
      | cons resolves toElement later =>
        exact .cons (PathStep.leadsOn resolves isListed toElement _ rfl) (ih later listedRest)
    | cons next rest =>
      cases walk with
      | cons resolves toElement later =>
        exact .cons (PathStep.leadsOn resolves isListed toElement _ rfl) (ih later listedRest)

theorem Forest.covers_target {item : ExpandItem} (built : Forest.build mapping.schema modelType
      clause context maxExpandDepth = .ok forest)
    (included : Include.ofForest mapping.schema modelType forest = .ok includes)
    (made : Mapping.includeTree includes = .ok tree)
    (isFound : Resolver.expandItems ⟨mapping.schema, context, maxExpandDepth⟩ modelType clause =
      .ok found)
    (grows : Forest.GrowsBy found .empty forest) (distinct : ExpandItem.Distinct found)
    (isItem : item ∈ found) (listed : item.Listed mapping.schema) :
    tree.Covers item.target.names := by
  -- An expansion of the forest is the path of some item, which need not be this one.
  have ofItem : ∀ path ∈ forest.expansions, ∃ item ∈ found, item.target = path := by
    intro path expanded
    rcases grows.adds path expanded with outside | isTarget
    · simp [Forest.empty] at outside
    · exact isTarget
  obtain ⟨path, expanded, later, starts⟩ :=
    grows.reaches distinct (by simp [Forest.empty]) item isItem
  obtain ⟨other, isOther, rfl⟩ := ofItem path expanded
  have walk := Resolver.expandItems_walk isFound isOther
  rw [← starts] at walk expanded
  exact Forest.covers_of_includes included made (Forest.build_leads built) (.inl expanded) walk listed

theorem Forest.item_of_list (isFound : Resolver.expandItems ⟨mapping.schema, context, maxExpandDepth⟩
      modelType clause = .ok found)
    (grows : Forest.GrowsBy found .empty forest) (isList : steps ∈ forest.listsOf kind) :
    ∃ item ∈ found, item.options ≠ .unrefined ∧ ∃ (before : MemberPath) (last : PathStep),
      item.target = before ++ [last] ∧ Refiner.carries kind (.ofPathStep last) = true ∧
      steps = before.stepsTo last ∧
      (item.Listed mapping.schema → item.ReadFromSource mapping → steps.Passes mapping modelType) := by
  obtain ⟨item, isItem, before, last, target, carries, rfl⟩ := item_of_steps isFound grows isList
  obtain ⟨before', last', element, filter, arrangement, target', leads⟩ :=
    Resolver.expandItems_last isFound isItem
  have isLast : last ∈ item.target.getLast? := by simp [target]
  -- A list ends in a step that carries an option of its kind.
  have refined : item.options ≠ .unrefined := by
    intro unrefined
    have plain : last.IsPlain := by
      simpa [ExpandItem.options, target, ExpandOptions.unrefined, PathStep.IsPlain] using unrefined
    rw [carries_of_plain plain] at carries
    contradiction
  have toElement : last.element? = some element := by
    rw [target] at target'
    obtain ⟨-, lasts⟩ := List.append_inj' target' rfl
    cases lasts
    exact leads
  have walk := Resolver.expandItems_walk isFound isItem
  rw [target] at walk
  refine ⟨item, isItem, refined, before, last, target, carries, rfl, fun listed fromSource => ?_⟩
  rw [ExpandItem.Listed, target] at listed
  exact MemberPath.passes_stepsTo walk listed toElement (fromSource last isLast)

theorem Forest.listsOf_pass (built : Forest.build mapping.schema modelType clause context
      maxExpandDepth = .ok forest)
    (included : Include.ofForest mapping.schema modelType forest = .ok includes)
    (made : Mapping.includeTree includes = .ok tree)
    (isFound : Resolver.expandItems ⟨mapping.schema, context, maxExpandDepth⟩ modelType clause =
      .ok found)
    (grows : Forest.GrowsBy found .empty forest) (distinct : ExpandItem.Distinct found)
    (listed : ∀ item ∈ found, item.options ≠ .unrefined → item.Listed mapping.schema)
    (fromSource : ∀ item ∈ found, item.options ≠ .unrefined → item.ReadFromSource mapping)
    (isList : steps ∈ forest.listsOf kind) :
    steps.Passes mapping modelType ∧ tree.Covers steps.names := by
  obtain ⟨item, isItem, refined, before, last, target, -, rfl, passes⟩ :=
    Forest.item_of_list isFound grows isList
  have isListed := listed item isItem refined
  refine ⟨passes isListed (fromSource item isItem refined), ?_⟩
  rw [MemberPath.names_stepsTo, ← target]
  exact Forest.covers_target built included made isFound grows distinct isItem isListed

end Stages

/-- The query gives one record for every row. On every level a collection that an expand item leads to
holds the records of the elements that the item leaves. -/
theorem Mapping.expandedQuery_reads {mapping : Mapping} {context : BindingContext}
    {maxExpandDepth : Nat} {parameters : ProjectionParameters} {sourceType modelType : String}
    {clause : Option Clause} {found : List ExpandItem} {query : Expr} {rows results : List Value}
    (isFound : Resolver.expandItems ⟨mapping.schema, context, maxExpandDepth⟩ modelType clause =
      .ok found)
    (distinct : ExpandItem.Distinct found)
    (listed : ∀ item ∈ found, item.options ≠ .unrefined → item.Listed mapping.schema)
    (fromSource : ∀ item ∈ found, item.options ≠ .unrefined → item.ReadFromSource mapping)
    (isQuery : mapping.expandedQuery context maxExpandDepth parameters sourceType modelType clause =
      .ok query)
    (evaluated : sequence rows query = .ok results) :
    ∃ tree, mapping.includedTree context maxExpandDepth modelType clause = .ok tree ∧
      (∀ item ∈ found, item.options ≠ .unrefined → tree.Covers item.target.names) ∧
      rows.mapM (Refiner.readRecord ⟨mapping, context⟩ parameters rows
        (mapping.constructionDepth tree) tree (.ofItems found) modelType (.named sourceType)) =
          .ok results := by
  simp only [expandedQuery, bind_eq_ok, pure_eq_ok] at isQuery
  obtain ⟨forest, built, includes, included, projection, projects, filtered, filters, arranged,
    arranges, rfl⟩ := isQuery
  obtain ⟨found', isFound', grows⟩ := Forest.build_grows built
  cases isFound.symm.trans isFound'
  obtain ⟨sameParameter, inScope⟩ := project_spec projects
  simp only [project, bind_eq_ok, pure_eq_ok] at projects
  obtain ⟨-, -, tree, made, body, constructed, rfl⟩ := projects
  have passes (kind : RefinementKind) : ∀ steps ∈ forest.listsOf kind,
      ExpansionSteps.Passes mapping modelType steps ∧ tree.Covers (ExpansionSteps.names steps) :=
    fun steps => Forest.listsOf_pass built included made isFound grows distinct listed fromSource
  refine ⟨tree, ?_, fun item isItem refined =>
    Forest.covers_target built included made isFound grows distinct isItem (listed item isItem refined),
    ?_⟩
  · simp only [includedTree, built, included, ok_bind, made]
  -- The source has no records, so all refinements are made in the body of the projection.
  have free : (Expr.allRows sourceType).ConstructFree := trivial
  have inScopeAll : (Expr.selected (.allRows sourceType) ⟨rootParameter sourceType, body⟩).ScopedIn [] :=
    ⟨trivial, Expr.scopedIn_of_closed_lambda inScope [], trivial⟩
  have inScopeArranged : arranged.ScopedIn [] :=
    Refiner.applyAll_scopedIn (Refiner.applyAll_scopedIn inScopeAll filters) arranges
  rw [Expr.selected, Expr.apply, Expr.ofLambda, Refiner.applyAll_select free] at filters
  simp only [bind_eq_ok, pure_eq_ok] at filters
  obtain ⟨filteredBody, filtersBody, rfl⟩ := filters
  rw [Refiner.applyAll_select free] at arranges
  simp only [bind_eq_ok, pure_eq_ok] at arranges
  obtain ⟨arrangedBody, arrangesBody, rfl⟩ := arranges
  -- First the shape of the projection, then that with the filters, then that with the arrangements.
  have shaped : Refiner.Shaped ⟨mapping, context⟩ parameters (mapping.constructionDepth tree) tree
      .unrefined modelType (.parameter (rootParameter sourceType)) 0 body :=
    Refiner.construct_shaped (Expr.readable_parameter _) constructed
  obtain ⟨filtered, shapedFiltered, placesFilters, accepts⟩ := Refiner.filters_shaped
    (fun steps isList => (passes .filter steps isList).1)
    (fun steps isList => (passes .filter steps isList).2)
    (ExpansionSteps.listsEndingIn_names _ _) (Expr.readable_parameter _) shaped filtersBody
  obtain ⟨asked, shapedArranged, placesArrangements⟩ := Refiner.applyAll_shaped
    (fun steps isList => (passes .arrangement steps isList).1)
    (fun steps isList => (passes .arrangement steps isList).2)
    (ExpansionSteps.listsEndingIn_names _ _) (fun _ _ name rest _ => accepts name rest)
    (Expr.readable_parameter _) shapedFiltered arrangesBody
  rw [Refinements.places_ofItems isFound grows distinct placesFilters placesArrangements]
    at shapedArranged
  -- What the query evaluates to is the body, row by row.
  have yields := (Yields.source rows [] (.collection .queryable (.named sourceType))).select
    (rootParameter sourceType) arrangedBody
    (Expr.callType .select [.allRows sourceType, .lambda (rootParameter sourceType) body])
  have isSequence := (sequence_withoutReservedNames rows inScopeArranged).eq_ok_iff results
    |>.2 evaluated
  have mapped := (yields.sequence.eq_ok_iff results).1 isSequence
  rw [ok_bind] at mapped
  refine mapM_of_mapItems (fun row value isValue => ?_) mapped
  have isRow : eval rows [(itemNameAtDepth 0, row)] (.parameter (rootParameter sourceType)) =
      .ok row := by
    simp only [eval, rootParameter, List.lookup_cons_self]
  exact shapedArranged.readRecord isRow isValue

def playerMapping : Mapping where
  schema := ⟨[
    ⟨"Club", .entity, none, [⟨"Name", .scalar .string⟩,
      ⟨"Members", .collection .list (.named "Person")⟩]⟩,
    ⟨"Person", .entity, none, [⟨"Name", .scalar .string⟩, ⟨"Points", .scalar .int32⟩,
      ⟨"Friends", .collection .list (.named "Person")⟩]⟩,
    ⟨"Team", .entity, none, [⟨"Name", .scalar .string⟩,
      ⟨"Players", .collection .list (.named "Player")⟩]⟩,
    ⟨"Player", .entity, none, [⟨"Name", .scalar .string⟩, ⟨"Score", .scalar .int32⟩,
      ⟨"Friends", .collection .list (.named "Player")⟩]⟩]⟩
  maps := [("Team", ⟨"Club", [("Players", .path ["Members"])]⟩),
    ("Player", ⟨"Person", [("Score", .path ["Points"])]⟩)]

def scoreAbove (score : Int) : Filter :=
  .compare (.member "Score") .gt (.literal (.number ⟨score, 0⟩))

def bestPlayer : Option Clause :=
  some ⟨true, [.expand ["Players"]
    (some ⟨true, [.expand ["Friends"] none (some (scoreAbove 2)) ⟨[], none, none⟩]⟩)
    (some (scoreAbove 1)) ⟨[⟨"Score", .descending⟩], none, some 1⟩]⟩

def bestPlayerItems : List ExpandItem :=
  let players : PathStep := ⟨"Players", "Team", .collection .list (.named "Player"), .collection, true,
    some ⟨scoreAbove 1, "Player", ⟨true, none⟩⟩, some ⟨[⟨"Score", .descending⟩], none, some 1⟩⟩
  let friends : PathStep := ⟨"Friends", "Player", .collection .list (.named "Player"), .collection, true,
    some ⟨scoreAbove 2, "Player", ⟨true, none⟩⟩, none⟩
  [⟨[players], false⟩, ⟨[players, friends], false⟩]

def oneClub : List Value :=
  let person (name : String) (points : Int) (friends : List Value) : Value :=
    .record "Person" [("Name", .string name), ("Points", .int points), ("Friends", .list friends)]
  [.record "Club" [("Name", .string "Brann"), ("Members", .list [person "Ola" 1 [],
    person "Anne" 2 [], person "Kari" 3 [person "Ola" 1 [], person "Per" 4 []]])]]

theorem expandItems_bestPlayer : Resolver.expandItems ⟨playerMapping.schema, ⟨true, none⟩, 4⟩ "Team"
    bestPlayer = .ok bestPlayerItems := by
  simp only [Resolver.expandItems, bestPlayer, Resolver.expandsMet, Resolver.selectsMet]
  rfl

theorem listed_bestPlayer : ∀ item ∈ bestPlayerItems, item.Listed playerMapping.schema := by
  have players : playerMapping.schema.Lists "Team"
      ⟨"Players", .collection .list (.named "Player")⟩ :=
    ⟨[⟨"Name", .scalar .string⟩, ⟨"Players", .collection .list (.named "Player")⟩], rfl, by simp⟩
  have friends : playerMapping.schema.Lists "Player"
      ⟨"Friends", .collection .list (.named "Player")⟩ :=
    ⟨[⟨"Name", .scalar .string⟩, ⟨"Score", .scalar .int32⟩,
      ⟨"Friends", .collection .list (.named "Player")⟩], rfl, by simp⟩
  intro item isItem step onPath
  refine ⟨rfl, ?_⟩
  simp only [bestPlayerItems, List.mem_cons, List.not_mem_nil, or_false] at isItem
  rcases isItem with rfl | rfl
  · cases List.mem_singleton.1 onPath
    exact players
  · simp only [List.mem_cons, List.not_mem_nil, or_false] at onPath
    rcases onPath with rfl | rfl
    · exact players
    · exact friends

/-- The names of the records that the collections on a path hold. -/
def namesAt (path : List String) (records : List Value) : List String :=
  let reached := path.foldl (fun held member => held.flatMap fun record =>
    match record.field? member with
    | some (.list items) => items
    | _ => []) records
  reached.filterMap fun record =>
    match record.field? "Name" with
    | some (.string name) => some name
    | _ => none

theorem expandedQuery_reads_bestPlayer :
    ∃ query results tree, playerMapping.expandedQuery ⟨true, none⟩ 4 [] "Club" "Team" bestPlayer =
        .ok query ∧ sequence oneClub query = .ok results ∧ namesAt ["Players"] results = ["Kari"] ∧
      namesAt ["Players", "Friends"] results = ["Per"] ∧
      playerMapping.includedTree ⟨true, none⟩ 4 "Team" bestPlayer = .ok tree ∧
      oneClub.mapM (Refiner.readRecord ⟨playerMapping, ⟨true, none⟩⟩ [] oneClub
        (playerMapping.constructionDepth tree) tree (.ofItems bestPlayerItems) "Team"
          (.named "Club")) = .ok results := by
  let expected (results : List Value) : Bool :=
    namesAt ["Players"] results == ["Kari"] && namesAt ["Players", "Friends"] results == ["Per"]
  obtain ⟨query, isQuery, evaluates⟩ := exists_of_toOption_any
    (playerMapping.expandedQuery ⟨true, none⟩ 4 [] "Club" "Team" bestPlayer)
    (fun query => (sequence oneClub query).toOption.any expected) (by decide +kernel)
  obtain ⟨results, evaluated, named⟩ := exists_of_toOption_any (sequence oneClub query) expected evaluates
  obtain ⟨players, friends⟩ := Bool.and_eq_true_iff.1 named
  have distinct : ExpandItem.Distinct bestPlayerItems := by
    simp [ExpandItem.Distinct, bestPlayerItems, MemberPath.names]
  have fromSource : ∀ item ∈ bestPlayerItems, item.options ≠ .unrefined →
      item.ReadFromSource playerMapping := by
    intro item isItem _ last isLast
    simp only [bestPlayerItems, List.mem_cons, List.not_mem_nil, or_false] at isItem
    rcases isItem with rfl | rfl
    · cases isLast
      rfl
    · cases isLast
      rfl
  obtain ⟨tree, isTree, -, mapped⟩ := Mapping.expandedQuery_reads expandItems_bestPlayer distinct
    (fun item isItem _ => listed_bestPlayer item isItem) fromSource isQuery evaluated
  exact ⟨query, results, tree, isQuery, evaluated, beq_iff_eq.1 players, beq_iff_eq.1 friends, isTree,
    mapped⟩

def twofoldMapping : Mapping where
  schema := ⟨[
    ⟨"Club", .entity, none, [⟨"Members", .collection .list (.named "Person")⟩]⟩,
    ⟨"Person", .entity, none, [⟨"Points", .scalar .int32⟩]⟩,
    ⟨"Team", .entity, none, [⟨"Members", .collection .list (.named "Player")⟩,
      ⟨"Members", .collection .list (.named "Reserve")⟩]⟩,
    ⟨"Player", .entity, none, [⟨"Points", .scalar .int32⟩]⟩,
    ⟨"Reserve", .entity, none, [⟨"Points", .scalar .int32⟩]⟩]⟩
  maps := [("Team", ⟨"Club", []⟩), ("Player", ⟨"Person", []⟩), ("Reserve", ⟨"Person", []⟩)]

def membersAboveOne : Option Clause :=
  some ⟨false, [.expand ["Members"] none
    (some (.compare (.member "Points") .gt (.literal (.number ⟨1, 0⟩)))) ⟨[], none, none⟩]⟩

def membersAboveOneItem : ExpandItem :=
  ⟨[⟨"Members", "Team", .collection .list (.named "Player"), .collection, true,
    some ⟨.compare (.member "Points") .gt (.literal (.number ⟨1, 0⟩)), "Player", ⟨true, none⟩⟩,
    none⟩], false⟩

theorem expandItems_membersAboveOne : Resolver.expandItems
    ⟨twofoldMapping.schema, ⟨true, none⟩, 4⟩ "Team" membersAboveOne = .ok [membersAboveOneItem] := by
  simp only [Resolver.expandItems, membersAboveOne, Resolver.expandsMet, Resolver.selectsMet]
  rfl

def heldCounts (member : String) (records : List Value) : List Nat :=
  records.map fun record =>
    match record.field? member with
    | some (.list items) => items.length
    | _ => 0

def clubOfTwo : List Value :=
  [.record "Club" [("Members", .list [.record "Person" [("Points", .int 1)],
    .record "Person" [("Points", .int 2)]])]]

/-- What the item leads to is read from a collection of the elements that it is mapped from. -/
def ExpandItem.ReadFromElements (mapping : Mapping) (item : ExpandItem) : Prop :=
  ∀ last ∈ item.target.getLast?, ∃ element sourceType elementSource ty,
    last.element? = some element ∧ mapping.sourceType last.declaringType = .ok sourceType ∧
    mapping.sourceType element = .ok elementSource ∧
    mapping.typeRead? (.named sourceType) last = some ty ∧ ty.typeName? = some elementSource ∧
    ty.isCollection = last.memberType.isCollection

/-- The filter is lost when another declaration takes the place of the expanded member. -/
theorem not_expandedQuery_reads_unlisted :
    ¬ ∀ (mapping : Mapping) (context : BindingContext) (maxExpandDepth : Nat)
        (parameters : ProjectionParameters) (sourceType modelType : String) (clause : Option Clause)
        (found : List ExpandItem) (query : Expr) (rows results : List Value),
      Resolver.expandItems ⟨mapping.schema, context, maxExpandDepth⟩ modelType clause = .ok found →
      ExpandItem.Distinct found → (∀ item ∈ found, item.ReadFromElements mapping) →
      mapping.expandedQuery context maxExpandDepth parameters sourceType modelType clause =
        .ok query → sequence rows query = .ok results →
      ∃ tree, mapping.includedTree context maxExpandDepth modelType clause = .ok tree ∧
        rows.mapM (Refiner.readRecord ⟨mapping, context⟩ parameters rows
          (mapping.constructionDepth tree) tree (.ofItems found) modelType (.named sourceType)) =
            .ok results := by
  intro always
  obtain ⟨query, isQuery, evaluates⟩ := exists_of_toOption_any
    (twofoldMapping.expandedQuery ⟨true, none⟩ 4 [] "Club" "Team" membersAboveOne)
    (fun query => (sequence clubOfTwo query).toOption.any fun results =>
      heldCounts "Members" results == [2]) (by decide +kernel)
  obtain ⟨results, evaluated, both⟩ := exists_of_toOption_any (sequence clubOfTwo query)
    (fun results => heldCounts "Members" results == [2]) evaluates
  have distinct : ExpandItem.Distinct [membersAboveOneItem] := List.pairwise_singleton _ _
  have fromElements : ∀ item ∈ [membersAboveOneItem], item.ReadFromElements twofoldMapping := by
    intro item isItem last isLast
    cases List.mem_singleton.1 isItem
    cases isLast
    exact ⟨"Player", "Club", "Person", _, rfl, rfl, rfl, rfl, rfl, rfl⟩
  obtain ⟨tree, isTree, mapped⟩ := always _ _ _ _ _ _ _ _ _ _ _ expandItems_membersAboveOne
    distinct fromElements isQuery evaluated
  obtain ⟨tree', isTree', reads⟩ := exists_of_toOption_any
    (twofoldMapping.includedTree ⟨true, none⟩ 4 "Team" membersAboveOne)
    (fun tree => (clubOfTwo.mapM (Refiner.readRecord ⟨twofoldMapping, ⟨true, none⟩⟩ [] clubOfTwo
      (twofoldMapping.constructionDepth tree) tree (.ofItems [membersAboveOneItem]) "Team"
      (.named "Club"))).toOption.any fun results => heldCounts "Members" results == [1])
    (by decide +kernel)
  cases isTree.symm.trans isTree'
  rw [mapped] at reads
  have one : heldCounts "Members" results = [1] := by
    simpa [Except.toOption] using reads
  rw [beq_iff_eq.1 both] at one
  simp at one

end QueryProjection
