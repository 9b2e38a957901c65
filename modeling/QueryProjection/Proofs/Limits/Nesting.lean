import QueryProjection.Proofs.Expansion.Options
import QueryProjection.Proofs.Forest.Building
import QueryProjection.Request.Limits

set_option autoImplicit false

namespace QueryProjection

namespace Limits

structure Admits (limits : Limits) (filter : Option ScopedFilter)
    (arrangement : Option Arrangement) : Prop where
  filter : ∀ bound ∈ filter, bound.filter.size ≤ limits.maxFilterNodes
  order : ∀ arranged ∈ arrangement, arranged.order.length ≤ limits.maxOrderKeys
  skip : ∀ arranged ∈ arrangement, ∀ skip ∈ arranged.skip, skip ≤ limits.maxSkip
  top : ∀ arranged ∈ arrangement, ∀ top ∈ arranged.top, top ≤ limits.maxTop

instance (limits : Limits) (filter : Option ScopedFilter) (arrangement : Option Arrangement) :
    Decidable (limits.Admits filter arrangement) :=
  decidable_of_iff
    ((∀ bound ∈ filter, bound.filter.size ≤ limits.maxFilterNodes) ∧
      (∀ arranged ∈ arrangement, arranged.order.length ≤ limits.maxOrderKeys) ∧
      (∀ arranged ∈ arrangement, ∀ skip ∈ arranged.skip, skip ≤ limits.maxSkip) ∧
      ∀ arranged ∈ arrangement, ∀ top ∈ arranged.top, top ≤ limits.maxTop)
    ⟨fun ⟨filter, order, skip, top⟩ => ⟨filter, order, skip, top⟩,
      fun admits => ⟨admits.filter, admits.order, admits.skip, admits.top⟩⟩

abbrev AdmitsStep (limits : Limits) (step : PathStep) : Prop :=
  limits.Admits step.filter step.arrangement

/-- Neither the expansions nor the lists that refine the projection go beyond the limits. -/
structure Bound (limits : Limits) (forest : Forest) : Prop where
  depth : ∀ path ∈ forest.expansions, path.length ≤ limits.maxExpandDepth
  steps : ∀ path ∈ forest.expansions, ∀ step ∈ path, limits.AdmitsStep step
  filters : ∀ list ∈ ExpansionSteps.endingInFilter (ExpansionSteps.ofForest forest),
    ∀ step ∈ list, limits.Admits step.filter step.arrangement
  arrangements : ∀ list ∈ ExpansionSteps.endingInArrangement (ExpansionSteps.ofForest forest),
    ∀ step ∈ list, limits.Admits step.filter step.arrangement

variable {limits : Limits}

theorem Admits.none : limits.Admits none none := by
  constructor <;> simp

theorem admits_of_isPlain {step : PathStep} (plain : step.IsPlain) : limits.AdmitsStep step := by
  obtain ⟨noFilter, noArrangement⟩ := plain
  rw [AdmitsStep, noFilter, noArrangement]
  exact .none

theorem refuse_unless_within {limit count : Nat} {cause : RequestError} :
    (if limit < count then refuse cause else .ok ()) = .ok () ↔ count ≤ limit := by
  rw [← Nat.not_lt]
  by_cases beyond : limit < count <;> simp [beyond, refuse]

theorem checkPresent_eq_ok {α : Type} {check : α → Outcome Unit} {value? : Option α} :
    checkPresent check value? = .ok () ↔ ∀ value ∈ value?, check value = .ok () := by
  cases value? <;> simp [checkPresent]

theorem checkLevel_eq_ok {filter : Option Filter} {arrangement : Arrangement} :
    limits.checkLevel filter arrangement = .ok () ↔
      (∀ top ∈ arrangement.top, top ≤ limits.maxTop) ∧
        (∀ skip ∈ arrangement.skip, skip ≤ limits.maxSkip) ∧
        (∀ present ∈ filter, present.size ≤ limits.maxFilterNodes) ∧
        arrangement.order.length ≤ limits.maxOrderKeys := by
  simp only [checkLevel, Outcome.bind_eq_ok, Unique.exists_iff, PUnit.default_eq_unit,
    checkPresent_eq_ok, checkTop, checkSkip, checkFilter, checkOrderCount, refuse_unless_within]

theorem admits_of_checkLevel {resolver : Resolver} {element : String} {filter : Option Filter}
    {arrangement : Arrangement} {step : PathStep}
    (passes : limits.checkLevel filter arrangement = .ok ()) :
    limits.AdmitsStep (resolver.optionsOf element filter arrangement step) := by
  obtain ⟨tops, skips, small, few⟩ := checkLevel_eq_ok.1 passes
  -- The step holds the arrangement as it is, or none where nothing is arranged.
  have same : ∀ arranged ∈ (resolver.optionsOf element filter arrangement step).arrangement,
      arranged = arrangement := by
    intro arranged member
    simp only [Resolver.optionsOf, Option.mem_def] at member
    split at member <;> simp_all
  constructor
  · intro bound member
    simp only [Resolver.optionsOf, Option.mem_def, Option.map_eq_some_iff] at member
    obtain ⟨filter, present, rfl⟩ := member
    exact small filter present
  · intro arranged member
    rw [same arranged member]
    exact few
  · intro arranged member
    rw [same arranged member]
    exact skips
  · intro arranged member
    rw [same arranged member]
    exact tops

theorem checkItems_of_mem {items : List ClauseItem} {segments : List String}
    {nested : Option Clause} {filter : Option Filter} {arrangement : Arrangement}
    (passes : limits.checkItems items = .ok ())
    (stands : .expand segments nested filter arrangement ∈ items) :
    limits.checkLevel filter arrangement = .ok () ∧
      ∀ allSelected inner, nested = some ⟨allSelected, inner⟩ →
        limits.checkItems inner = .ok () := by
  induction items with
  | nil => simp at stands
  | cons first rest ih =>
    rcases List.mem_cons.1 stands with rfl | later
    · cases nested with
      | none =>
        simp only [checkItems, Outcome.bind_eq_ok] at passes
        obtain ⟨_, level, -⟩ := passes
        exact ⟨level, by simp⟩
      | some clause =>
        simp only [checkItems, Outcome.bind_eq_ok] at passes
        obtain ⟨_, level, _, inside, -⟩ := passes
        refine ⟨level, ?_⟩
        rintro allSelected inner same
        cases same
        exact inside
    · -- Whatever stands before the item, the rest of the clause is checked too.
      refine ih ?_ later
      cases first with
      | expand segments nested filter arrangement =>
        simp only [checkItems, Outcome.bind_eq_ok] at passes
        obtain ⟨-, -, passes⟩ := passes
        split at passes
        next =>
          obtain ⟨-, -, passes⟩ := Outcome.bind_eq_ok.1 passes
          exact passes
        next => exact passes
      | path _ _ | reference _ | count _ => simpa only [checkItems] using passes

theorem admits_of_meets {resolver : Resolver} {below : Bool} {typeName : String}
    {path : MemberPath} {items : List ClauseItem} {item : ExpandItem}
    (meets : resolver.Meets below typeName path items item)
    (passes : limits.checkItems items = .ok ()) (reached : item.belowSelect = false) :
    ∀ last ∈ item.target.getLast?, limits.AdmitsStep last := by
  induction meets with
  | here stands leads =>
    obtain ⟨-, before, last, rfl, -⟩ := Resolver.expandTarget_eq_ok leads
    simpa using admits_of_checkLevel (checkItems_of_mem passes stands).1
  | belowExpand stands leads met ih =>
    exact ih ((checkItems_of_mem passes stands).2 _ _ rfl) reached
  | belowSelect stands leads met ih =>
    simp [met.flagged rfl] at reached

theorem checkItems_of_check {options : RequestOptions} {allSelected : Bool}
    {items : List ClauseItem} (passes : limits.check options = .ok ())
    (present : options.clause = some ⟨allSelected, items⟩) : limits.checkItems items = .ok () := by
  simp only [check, present, Outcome.bind_eq_ok] at passes
  obtain ⟨_, -, _, -, passes⟩ := passes
  exact passes

theorem length_le_of_expandItems {resolver : Resolver} {rootType : String}
    {clause : Option Clause} {found : List ExpandItem} {item : ExpandItem}
    (isFound : resolver.expandItems rootType clause = .ok found) (member : item ∈ found) :
    item.target.length ≤ resolver.maxExpandDepth := by
  match clause with
  | none =>
    simp only [Resolver.expandItems, Except.ok.injEq] at isFound
    simp [← isFound] at member
  | some ⟨allSelected, items⟩ => exact (Resolver.meets_of_expandItems isFound member).length_le

theorem admits_of_expandItems {resolver : Resolver} {rootType : String} {options : RequestOptions}
    {found : List ExpandItem} {item : ExpandItem} (passes : limits.check options = .ok ())
    (isFound : resolver.expandItems rootType options.clause = .ok found) (member : item ∈ found)
    (reached : item.belowSelect = false) :
    ∀ last ∈ item.target.getLast?, limits.AdmitsStep last := by
  match clause : options.clause with
  | none =>
    simp only [clause, Resolver.expandItems, Except.ok.injEq] at isFound
    simp [← isFound] at member
  | some ⟨allSelected, items⟩ =>
    rw [clause] at isFound
    exact admits_of_meets (Resolver.meets_of_expandItems isFound member)
      (checkItems_of_check passes clause) reached

theorem admits_of_listsEndingIn {wanted : ExpansionStep → Bool} {forest : Forest}
    (steps : ∀ path ∈ forest.expansions, ∀ step ∈ path, limits.AdmitsStep step)
    {list : ExpansionSteps}
    (member : list ∈ ExpansionSteps.listsEndingIn wanted (ExpansionSteps.ofForest forest)) :
    ∀ step ∈ list, limits.Admits step.filter step.arrangement := by
  obtain ⟨whole, isList, start, last, rest, same, -, rfl⟩ :=
    ExpansionSteps.mem_of_mem_listsEndingIn member
  obtain ⟨path, isPath, rfl⟩ := List.mem_map.1 isList
  intro step inList
  rcases List.mem_append.1 inList with inStart | isLast
  · obtain ⟨full, -, rfl⟩ := List.mem_map.1 inStart
    exact .none
  · have inPath : step ∈ path.map ExpansionStep.ofPathStep := by
      rw [same, List.mem_singleton.1 isLast]
      simp
    obtain ⟨pathStep, onPath, rfl⟩ := List.mem_map.1 inPath
    exact steps path isPath pathStep onPath

/-- The depth always holds; the rest holds as far as it does of the items that the check leaves out
and that an expansion runs through. -/
theorem bound_iff_admits_below_selects {limits : Limits} {schema : Schema} {rootType : String}
    {options : RequestOptions} {context : BindingContext} {forest : Forest}
    (passes : limits.check options = .ok ())
    (built : Forest.build schema rootType options.clause context limits.maxExpandDepth =
      .ok forest) :
    (∀ path ∈ forest.expansions, path.length ≤ limits.maxExpandDepth) ∧
      ∃ items, Resolver.expandItems ⟨schema, context, limits.maxExpandDepth⟩ rootType
          options.clause = .ok items ∧
        (limits.Bound forest ↔
          ∀ item ∈ items, item.belowSelect = true →
            (∃ path ∈ forest.expansions, item.target <+: path) →
              ∀ last ∈ item.target.getLast?, limits.AdmitsStep last) := by
  obtain ⟨items, isItems, grows⟩ := Forest.build_grows built
  have fromItem : ∀ path ∈ forest.expansions, ∃ item ∈ items, item.target = path := by
    intro path isPath
    rcases grows.adds path isPath with before | added
    · simp [Forest.empty] at before
    · exact added
  have depth : ∀ path ∈ forest.expansions, path.length ≤ limits.maxExpandDepth := by
    intro path isPath
    obtain ⟨item, isItem, rfl⟩ := fromItem path isPath
    exact length_le_of_expandItems isItems isItem
  refine ⟨depth, items, isItems, ?_, ?_⟩
  · rintro bound item - - ⟨path, isPath, starts⟩ last isLast
    exact bound.steps path isPath last (starts.subset (List.mem_of_getLast? isLast))
  · intro admitted
    have steps : ∀ path ∈ forest.expansions, ∀ step ∈ path, limits.AdmitsStep step := by
      intro path isPath step onPath
      obtain ⟨start, rest, rfl⟩ := List.append_of_mem onPath
      have starts : start ++ [step] <+: start ++ step :: rest := ⟨rest, by simp⟩
      obtain ⟨item, isItem, same⟩ := fromItem _ isPath
      rcases Resolver.options_of_expandItems isItems isItem (same ▸ starts) with
        plain | ⟨other, isOther, ends⟩
      · exact admits_of_isPlain plain
      · have isLast : step ∈ other.target.getLast? := by simp [ends]
        cases reached : other.belowSelect with
        | false => exact admits_of_expandItems passes isItems isOther reached step isLast
        | true =>
          exact admitted other isOther reached ⟨_, isPath, ends ▸ starts⟩ step isLast
    exact ⟨depth, steps, fun list => admits_of_listsEndingIn steps,
      fun list => admits_of_listsEndingIn steps⟩

def addressSchema : Schema :=
  ⟨[⟨"Parent", .entity, none, [⟨"Name", .scalar .string⟩, ⟨"Address", .named "Address"⟩]⟩,
    ⟨"Address", .complex, none,
      [⟨"City", .scalar .string⟩, ⟨"Countries", .collection .list (.named "Country")⟩]⟩,
    ⟨"Country", .entity, none, [⟨"Code", .scalar .string⟩]⟩]⟩

def expandBelowSelect (top : Nat) : RequestOptions :=
  { RequestOptions.ofModel "Parent" with
    clause := some ⟨false, [.path ["Address"] (some ⟨false,
      [.expand ["Countries"] none none ⟨[], none, some top⟩]⟩)]⟩ }

theorem check_expandBelowSelect (top : Nat) : standard.check (expandBelowSelect top) = .ok () := by
  simp [check, expandBelowSelect, checkLevel, checkPresent, checkItems, checkExpandDepth,
    Clause.depth, Clause.itemsDepth, checkOrderCount, RequestOptions.ofModel, standard]

def addressForest (top : Nat) : Outcome Forest :=
  Forest.build addressSchema "Parent" (expandBelowSelect top).clause ⟨true, none⟩
    standard.maxExpandDepth

theorem bound_below_select_thousand :
    ∃ forest, addressForest 1000 = .ok forest ∧ standard.Bound forest := by
  obtain ⟨forest, built, -⟩ := Outcome.exists_of_toOption_any (addressForest 1000)
    (fun _ => true) (by decide +kernel)
  obtain ⟨-, items, isItems, exact_⟩ :=
    bound_iff_admits_below_selects (check_expandBelowSelect 1000) built
  obtain ⟨items', isItems', admitted⟩ := Outcome.exists_of_toOption_any
    (Resolver.expandItems ⟨addressSchema, ⟨true, none⟩, standard.maxExpandDepth⟩
      "Parent" (expandBelowSelect 1000).clause)
    (fun items => decide (∀ item ∈ items, ∀ last ∈ item.target.getLast?,
      standard.AdmitsStep last)) (by decide +kernel)
  cases isItems.symm.trans isItems'
  refine ⟨forest, built, exact_.2 ?_⟩
  intro item isItem _ _
  exact of_decide_eq_true admitted item isItem

/-- The check accepts a top below a selected member that it refuses elsewhere. -/
theorem not_bound_below_select :
    ¬ ∀ (limits : Limits) (schema : Schema) (rootType : String) (options : RequestOptions)
        (context : BindingContext) (forest : Forest), limits.check options = .ok () →
      Forest.build schema rootType options.clause context limits.maxExpandDepth = .ok forest →
        limits.Bound forest := by
  intro always
  obtain ⟨forest, built, beyond⟩ := Outcome.exists_of_toOption_any (addressForest 5000)
    (fun forest => decide (∃ path ∈ forest.expansions, ∃ step ∈ path,
      ¬ standard.AdmitsStep step)) (by decide +kernel)
  obtain ⟨path, isPath, step, onPath, refused⟩ := of_decide_eq_true beyond
  have bound := always standard addressSchema "Parent" _ ⟨true, none⟩ forest
    (check_expandBelowSelect 5000) built
  exact refused (bound.steps path isPath step onPath)

end Limits

end QueryProjection
