import QueryProjection.Proofs.Forest.Levels
import QueryProjection.Proofs.Forest.Walk

set_option autoImplicit false

namespace QueryProjection

open Outcome

namespace Resolver

variable {resolver : Resolver} {typeName element next : String} {path target : MemberPath}
  {first second rest : List String} {nested : Option Clause} {last : PathStep}
  {items items' : List ClauseItem}

theorem followFrom_append (some_ : first ≠ [])
    (followed : resolver.followFrom path typeName first = .ok target)
    (isLast : target.getLast? = some last) :
    resolver.followFrom path typeName (first ++ next :: rest) =
      match last.element? with
      | some element => resolver.followFrom target element (next :: rest)
      | none => .error (.unresolvedMember last.memberType.toText next) := by
  induction first generalizing path typeName with
  | nil => contradiction
  | cons name others ih =>
    obtain ⟨member, step, element, resolved, made, leads, followed⟩ := followFrom_cons followed
    cases others with
    | nil =>
      simp only [followFrom, Except.ok.injEq] at followed
      subst followed
      rw [List.getLast?_concat, Option.some.injEq] at isLast
      subst isLast
      have typed : step.memberType = member.ty := (stepOf_eq_ok made).2.2.1
      cases toElement : step.element? <;>
        simp only [List.cons_append, List.nil_append, followFrom, resolved, made, ok_bind, typed,
          toElement]
    | cons other others =>
      have later := ih (by simp) followed
      have toElement : step.element? = some element := leads (by simp)
      simp only [List.cons_append, followFrom, resolved, made, ok_bind, toElement] at later ⊢
      exact later

theorem follow_append (next : String) (rest : List String)
    (followed : resolver.follow path typeName first = .ok target) (isLast : target.getLast? = some last) :
    resolver.follow path typeName (first ++ next :: rest) =
      match last.element? with
      | some element => resolver.follow target element (next :: rest)
      | none => .error (.unresolvedMember last.memberType.toText next) := by
  obtain ⟨some_, followed⟩ := follow_iff.1 followed
  rw [follow, if_neg (by simp), followFrom_append some_ followed isLast]
  rfl

theorem selectTarget_append (some_ : second ≠ [])
    (leads : resolver.selectTarget path typeName first = .ok (target, some element)) :
    resolver.selectTarget path typeName (first ++ second) =
      resolver.selectTarget target element second := by
  obtain ⟨next, rest, rfl⟩ := List.exists_cons_of_ne_nil some_
  have follows := (selectTarget_iff.1 leads).1
  obtain ⟨added, added_ne, rfl, -, -, toElement⟩ := selectTarget_eq_ok leads
  obtain ⟨last, isLast, leadsLast⟩ := toElement element rfl
  have endsAt : (path ++ added).getLast? = some last := by
    rw [List.getLast?_append_of_ne_nil _ added_ne]
    exact isLast
  have onwards := follow_append next rest follows endsAt
  rw [leadsLast] at onwards
  simp only [selectTarget, onwards]

theorem addClause_path (segments : List String) (nested : Option Clause) (forest : Forest) :
    resolver.addClause typeName path ⟨false, [.path segments nested]⟩ forest = (do
      let target ← resolver.selectTarget path typeName segments
      resolver.addSelected nested forest target) := by
  simp only [addClause, level, checkItems, addExpands, Clause.takesDefaults, ok_bind,
    addSelects_path, addSelects, bind_ok, List.any_cons, ClauseItem.isPath_path, Bool.true_or,
    Bool.not_true, Bool.false_or, Bool.false_eq_true, if_false]

/-- One selected path of the first clause is written with a nested clause in the second. What is
nested in items that do not lead anywhere makes no difference. -/
inductive Splits (resolver : Resolver) : String → MemberPath → Clause → Clause → Prop where
  | here {typeName element : String} {path target : MemberPath} {allSelected : Bool}
      {before after : List ClauseItem} {first second : List String} {nested : Option Clause}
      (leads : resolver.selectTarget path typeName first = .ok (target, some element))
      (some_ : second ≠ []) :
      Splits resolver typeName path
        ⟨allSelected, before ++ .path (first ++ second) nested :: after⟩
        ⟨allSelected, before ++ .path first (some ⟨false, [.path second nested]⟩) :: after⟩
  | belowExpand {typeName : String} {path : MemberPath} {allSelected : Bool}
      {before after : List ClauseItem} {segments : List String} {nested nested' : Clause}
      {filter : Option Filter} {arrangement : Arrangement}
      (below : ∀ target element,
        resolver.expandTarget path typeName segments filter arrangement = .ok (target, element) →
          Splits resolver element target nested nested') :
      Splits resolver typeName path
        ⟨allSelected, before ++ .expand segments (some nested) filter arrangement :: after⟩
        ⟨allSelected, before ++ .expand segments (some nested') filter arrangement :: after⟩
  | belowSelect {typeName : String} {path : MemberPath} {allSelected : Bool}
      {before after : List ClauseItem} {segments : List String} {nested nested' : Clause}
      (below : ∀ target element,
        resolver.selectTarget path typeName segments = .ok (target, some element) →
          Splits resolver element target nested nested') :
      Splits resolver typeName path
        ⟨allSelected, before ++ .path segments (some nested) :: after⟩
        ⟨allSelected, before ++ .path segments (some nested') :: after⟩

theorem Splits.any_isExpand {clause clause' : Clause}
    (splits : resolver.Splits typeName path clause clause') :
    clause'.items.any ClauseItem.isExpand = clause.items.any ClauseItem.isExpand := by
  cases splits <;> simp [ClauseItem.isExpand]

theorem level_congr {allSelected : Bool}
    {addExpands addExpands' addSelects addSelects' : Forest → Outcome Forest}
    (checks : checkItems items' = checkItems items)
    (takes : items'.any ClauseItem.isPath = items.any ClauseItem.isPath)
    (expands : ∀ forest, addExpands forest = addExpands' forest)
    (selects : ∀ forest, addSelects forest = addSelects' forest) (forest : Forest) :
    resolver.level typeName path allSelected items addExpands addSelects forest =
      resolver.level typeName path allSelected items' addExpands' addSelects' forest := by
  obtain rfl : addExpands = addExpands' := funext expands
  obtain rfl : addSelects = addSelects' := funext selects
  simp only [level, checks, Clause.takesDefaults, takes]
  rfl

theorem Splits.addClause {clause clause' : Clause}
    (splits : resolver.Splits typeName path clause clause') (forest : Forest) :
    resolver.addClause typeName path clause forest =
      resolver.addClause typeName path clause' forest := by
  induction splits generalizing forest with
  | here leads some_ =>
    refine level_congr ?_ ?_ (fun start => ?_) (fun start => ?_) forest
    · simp only [checkItems_append, checkItems]
    · simp
    · rw [addExpands_append, addExpands_append]
      refine bind_congr fun between => ?_
      simp only [addExpands]
    · -- The nested clause has one item, which goes on where its member leads.
      rw [addSelects_append, addSelects_append]
      refine bind_congr fun between => ?_
      simp only [addSelects_path, selectTarget_append some_ leads, leads, ok_bind, addSelected,
        Option.getD_some, addClause_path, bind_assoc]
  | belowExpand below ih =>
    refine level_congr ?_ ?_ (fun start => ?_) (fun start => ?_) forest
    · simp only [checkItems_append, checkItems]
    · simp
    · rw [addExpands_append, addExpands_append]
      refine bind_congr fun between => ?_
      rw [addExpands_expand, addExpands_expand]
      refine bind_congr_of_ok fun found leads => ?_
      simp only [Option.getD_some, ih found.1 found.2 leads, (below _ _ leads).any_isExpand]
    · rw [addSelects_append, addSelects_append]
      refine bind_congr fun between => ?_
      simp only [addSelects]
  | belowSelect below ih =>
    refine level_congr ?_ ?_ (fun start => ?_) (fun start => ?_) forest
    · simp only [checkItems_append, checkItems]
    · simp
    · rw [addExpands_append, addExpands_append]
      refine bind_congr fun between => ?_
      simp only [addExpands]
    · rw [addSelects_append, addSelects_append]
      refine bind_congr fun between => ?_
      rw [addSelects_path, addSelects_path]
      refine bind_congr_of_ok fun found leads => ?_
      obtain ⟨target, element⟩ := found
      cases element with
      | none => rfl
      | some element => simp only [addSelected, Option.getD_some, ih target element leads]

end Resolver

/-- A path with slashes and a nested clause are two ways to write the same, wherever the item stands
and whatever is around it, as long as the type of the complex member between them has a name. -/
theorem Forest.build_splits {schema : Schema} {rootType : String} {clause clause' : Clause}
    {context : BindingContext} {maxExpandDepth : Nat}
    (splits : Resolver.Splits ⟨schema, context, maxExpandDepth⟩ rootType [] clause clause') :
    Forest.build schema rootType (some clause) context maxExpandDepth =
      Forest.build schema rootType (some clause') context maxExpandDepth := by
  simp only [Resolver.build_eq_addClause, Option.getD_some, splits.addClause]

def townSchema : Schema :=
  ⟨[⟨"Country", .entity, none,
      [⟨"Name", .scalar .string⟩, ⟨"Towns", .collection .list (.named "Town")⟩]⟩,
    ⟨"Town", .entity, none,
      [⟨"Name", .scalar .string⟩, ⟨"Halls", .collection .list (.named "Hall")⟩,
        ⟨"Ruins", .collection .list (.nullable (.named "Hall"))⟩]⟩,
    ⟨"Hall", .complex, none, [⟨"Street", .scalar .string⟩, ⟨"Site", .named "Site"⟩]⟩,
    ⟨"Site", .complex, none, [⟨"Lat", .scalar .double⟩, ⟨"Lng", .scalar .double⟩]⟩]⟩

def townsWith (item : ClauseItem) : Clause :=
  ⟨false, [.expand ["Towns"] (some ⟨false, [.path ["Name"] none, item]⟩) none ⟨[], none, none⟩]⟩

theorem Forest.build_splits_towns :
    ∃ forest, Forest.build townSchema "Country"
          (some (townsWith (.path ["Halls", "Site", "Lat"] none))) ⟨false, none⟩ 4 = .ok forest ∧
      Forest.build townSchema "Country"
          (some (townsWith (.path ["Halls"] (some ⟨false, [.path ["Site", "Lat"] none]⟩))))
          ⟨false, none⟩ 4 = .ok forest := by
  obtain ⟨forest, built, -⟩ := exists_of_toOption_any
    (Forest.build townSchema "Country" (some (townsWith (.path ["Halls", "Site", "Lat"] none)))
      ⟨false, none⟩ 4) (fun _ => true) (by decide +kernel)
  obtain ⟨⟨towns, town⟩, leads, halls⟩ := exists_of_toOption_any
    (Resolver.expandTarget ⟨townSchema, ⟨false, none⟩, 4⟩ [] "Country" ["Towns"] none ⟨[], none, none⟩)
    (fun found => (Resolver.selectTarget ⟨townSchema, ⟨false, none⟩, 4⟩ found.1 found.2
      ["Halls"]).toOption.any fun halls => halls.2 == some "Hall") (by rfl)
  obtain ⟨⟨path, element⟩, leadsHalls, isHall⟩ := exists_of_toOption_any _ _ halls
  obtain rfl : element = some "Hall" := by simpa using isHall
  have splits : Resolver.Splits ⟨townSchema, ⟨false, none⟩, 4⟩ town towns
      ⟨false, [.path ["Name"] none] ++ .path (["Halls"] ++ ["Site", "Lat"]) none :: []⟩
      ⟨false, [.path ["Name"] none] ++
        .path ["Halls"] (some ⟨false, [.path ["Site", "Lat"] none]⟩) :: []⟩ :=
    .here leadsHalls (by simp)
  refine ⟨forest, built, (Forest.build_splits ?_).symm.trans built⟩
  change Resolver.Splits _ _ _ ⟨false, [] ++ .expand ["Towns"] (some _) none ⟨[], none, none⟩ :: []⟩
    ⟨false, [] ++ .expand ["Towns"] (some _) none ⟨[], none, none⟩ :: []⟩
  refine .belowExpand fun target element leads' => ?_
  cases leads.symm.trans leads'
  exact splits

/-- Ruins may be null, so a street of theirs is refused behind a slash and ignored in a clause. -/
theorem Forest.not_build_splits_complex :
    ¬ ∀ (schema : Schema) (rootType : String) (context : BindingContext) (maxExpandDepth : Nat)
        (allSelected : Bool) (before after : List ClauseItem) (first second : List String)
        (nested : Option Clause) (target : MemberPath) (last : PathStep),
      Resolver.follow ⟨schema, context, maxExpandDepth⟩ [] rootType first = .ok target →
      target.getLast? = some last → schema.targetKind last.memberType = .ok .complex →
      second ≠ [] →
      Forest.build schema rootType
          (some ⟨allSelected, before ++ .path (first ++ second) nested :: after⟩) context
          maxExpandDepth =
        Forest.build schema rootType
          (some ⟨allSelected, before ++ .path first (some ⟨false, [.path second nested]⟩) :: after⟩)
          context maxExpandDepth := by
  intro always
  obtain ⟨target, follows, ends⟩ := exists_of_toOption_any
    (Resolver.follow ⟨townSchema, ⟨false, none⟩, 4⟩ [] "Town" ["Ruins"])
    (fun target => target.getLast?.any fun last =>
      decide ((townSchema.targetKind last.memberType).toOption = some .complex)) (by rfl)
  obtain ⟨last, isLast, complex⟩ := (Option.any_eq_true _ _).1 ends
  have same := always townSchema "Town" ⟨false, none⟩ 4 false [] [] ["Ruins"] ["Street"] none target
    last follows isLast ?_ (by simp)
  · have differs : (Forest.build townSchema "Town"
        (some ⟨false, [.path ["Ruins", "Street"] none]⟩) ⟨false, none⟩ 4).toOption.isSome ≠
      (Forest.build townSchema "Town"
        (some ⟨false, [.path ["Ruins"] (some ⟨false, [.path ["Street"] none]⟩)]⟩)
        ⟨false, none⟩ 4).toOption.isSome := by decide +kernel
    exact differs (congrArg (fun built => built.toOption.isSome) same)
  · cases kind : townSchema.targetKind last.memberType with
    | error cause => simp [kind, Except.toOption] at complex
    | ok kind' => simpa [kind, Except.toOption] using complex

end QueryProjection
