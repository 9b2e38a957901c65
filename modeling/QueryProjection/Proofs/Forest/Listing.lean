import QueryProjection.Proofs.Forest.DefaultSteps
import QueryProjection.Proofs.Forest.Levels

set_option autoImplicit false

namespace QueryProjection

open Outcome

namespace ClauseItem

def naming (member : MemberDecl) : ClauseItem :=
  .path [member.name] none

@[simp] theorem isPath_naming (member : MemberDecl) : (naming member).isPath = true := rfl

end ClauseItem

def Schema.isSelectable (schema : Schema) (member : MemberDecl) : Bool :=
  match schema.targetKind member.ty with
  | .ok .primitive | .ok .complex => true
  | _ => false

theorem Schema.isDefault_eq_iff (schema : Schema) (path : MemberPath) (member : MemberDecl) :
    schema.isDefault path member = schema.isSelectable member ↔
      (schema.targetKind member.ty = .ok .complex →
        ∃ element, member.ty.typeName? = some element ∧
          Resolver.passes path element = false) := by
  unfold isDefault isSelectable
  cases schema.targetKind member.ty with
  | error cause => simp
  | ok kind =>
    cases kind with
    | complex => cases member.ty.typeName? <;> simp
    | _ => simp

theorem Schema.filter_isDefault_iff (schema : Schema) (path : MemberPath)
    (members : List MemberDecl) :
    members.filter (schema.isDefault path) = members.filter schema.isSelectable ↔
      ∀ member ∈ members, schema.targetKind member.ty = .ok .complex →
        ∃ element, member.ty.typeName? = some element ∧
          Resolver.passes path element = false := by
  simp only [← isDefault_eq_iff]
  refine ⟨fun same member isMember => ?_, List.filter_congr⟩
  have both : member ∈ members.filter (schema.isDefault path) ↔
      member ∈ members.filter schema.isSelectable := by rw [same]
  simp only [List.mem_filter, isMember, true_and] at both
  exact Bool.eq_iff_iff.2 both

namespace Resolver

variable {resolver : Resolver} {typeName levelType : String} {path levelPath : MemberPath}
  {items items' : List ClauseItem} {members listed : List MemberDecl}
  {forest forest' : Forest}

theorem addSelects_naming {member : MemberDecl}
    (own : resolver.schema.resolve typeName member.name = .ok member)
    (isDefault : resolver.schema.isDefault path member = true) (rest : List ClauseItem)
    (added : resolver.addDefault typeName path forest member = .ok forest') :
    resolver.addSelects typeName path (.naming member :: rest) forest =
      resolver.addSelects typeName path rest forest' := by
  obtain ⟨kind, step, isKind, made, added⟩ := addDefaultBy_eq_ok added
  have isStep : step.memberType = member.ty := (stepOf_eq_ok made).2.2.1
  have follows : resolver.follow path typeName [member.name] = .ok (path ++ [step]) := by
    simp only [follow, followFrom, List.isEmpty_cons, Bool.false_eq_true, if_false, own, made,
      ok_bind]
    rfl
  have leads : resolver.selectTarget path typeName [member.name] =
      .ok (path ++ [step], if kind = .complex then member.ty.typeName? else none) := by
    simp only [selectTarget, follows, ok_bind, List.getLast?_concat, Option.map_some,
      Option.getD_some, isStep, isKind]
    cases kind <;> rfl
  rw [ClauseItem.naming, addSelects_path, leads, ok_bind]
  obtain ⟨rfl, rfl⟩ | ⟨element, rfl, named, -, later⟩ | ⟨notDefault, -⟩ := added
  · rfl
  · rw [if_pos rfl, named, addSelected, Option.getD_none, addClause_unspecified, later, ok_bind]
  · rw [isDefault] at notDefault
    contradiction

theorem addDefault_of_not {member : MemberDecl}
    (notDefault : resolver.schema.isDefault path member = false)
    (added : resolver.addDefault typeName path forest member = .ok forest') : forest' = forest := by
  obtain ⟨kind, step, isKind, -, added⟩ := addDefaultBy_eq_ok added
  obtain ⟨rfl, -⟩ | ⟨element, rfl, named, new, -⟩ | ⟨-, same⟩ := added
  · simp [Schema.isDefault, isKind] at notDefault
  · simp [Schema.isDefault, isKind, named, new] at notDefault
  · exact same

theorem addSelects_defaults
    (own : ∀ member ∈ members, resolver.schema.resolve typeName member.name = .ok member)
    (added : members.foldlM (resolver.addDefault typeName path) forest = .ok forest') :
    resolver.addSelects typeName path
      ((members.filter (resolver.schema.isDefault path)).map .naming) forest = .ok forest' := by
  induction members generalizing forest with
  | nil =>
    simp only [List.foldlM_nil, pure_eq_ok] at added
    simp only [List.filter_nil, List.map_nil, addSelects, added]
  | cons member rest ih =>
    obtain ⟨ownFirst, ownRest⟩ := List.forall_mem_cons.1 own
    simp only [List.foldlM_cons, bind_eq_ok] at added
    obtain ⟨between, first, later⟩ := added
    cases isDefault : resolver.schema.isDefault path member with
    | true =>
      rw [List.filter_cons_of_pos isDefault, List.map_cons,
        addSelects_naming ownFirst isDefault _ first]
      exact ih ownRest later
    | false =>
      rw [List.filter_cons_of_neg (by simp [isDefault])]
      rw [addDefault_of_not isDefault first] at later
      exact ih ownRest later

/-- The level names the listed members, and is for the rest as it was. -/
structure Names (listed : List MemberDecl) (items items' : List ClauseItem) : Prop where
  absent : items.any ClauseItem.isPath = false
  others : (items'.filter fun item => !item.isPath) = items
  named : items'.filter ClauseItem.isPath = listed.map .naming

theorem Names.addClause {allSelected : Bool}
    (isMembers : resolver.schema.members typeName = .ok members)
    (own : ∀ member ∈ members, resolver.schema.resolve typeName member.name = .ok member)
    (names : Names (members.filter (resolver.schema.isDefault path)) items items')
    (added : resolver.addClause typeName path ⟨allSelected, items⟩ forest = .ok forest') :
    resolver.addClause typeName path ⟨false, items'⟩ forest = .ok forest' := by
  have none_ : items.filter ClauseItem.isPath = [] := by
    simpa [List.filter_eq_nil_iff] using names.absent
  simp only [Resolver.addClause, level, bind_eq_ok] at added ⊢
  obtain ⟨⟨⟩, checked, expanded, expands, added⟩ := added
  refine ⟨(), ?_, expanded, ?_, ?_⟩
  · rw [← checkItems_filter, names.others, checked]
  · rw [← addExpands_filter, names.others, expands]
  have takes : Clause.takesDefaults ⟨allSelected, items⟩ = true := by
    simp [Clause.takesDefaults, names.absent]
  rw [if_pos takes, bind_eq_ok] at added
  obtain ⟨defaulted, defaults, selects⟩ := added
  rw [← addSelects_filter, none_, addSelects, Except.ok.injEq] at selects
  subst selects
  -- The defaults of the one clause are the named members of the other.
  have listed : resolver.addSelects typeName path items' expanded = .ok defaulted := by
    rw [addDefaults_eq, isMembers, ok_bind] at defaults
    rw [← addSelects_filter, names.named]
    exact addSelects_defaults own defaults
  split
  next takes' =>
    -- Without a default member nothing is named, and the level still takes its defaults.
    have noneNamed : items'.filter ClauseItem.isPath = [] := by
      simpa [Clause.takesDefaults, List.filter_eq_nil_iff] using takes'
    rw [defaults, ok_bind, ← addSelects_filter, noneNamed, addSelects]
  next => rw [ok_bind, listed]

inductive NamesAt (resolver : Resolver) (levelType : String) (levelPath : MemberPath)
    (listed : List MemberDecl) : String → MemberPath → Clause → Clause → Prop where
  | here {allSelected : Bool} {items items' : List ClauseItem} (names : Names listed items items') :
      NamesAt resolver levelType levelPath listed levelType levelPath ⟨allSelected, items⟩
        ⟨false, items'⟩
  | belowExpand {typeName element : String} {path target : MemberPath} {allSelected : Bool}
      {before after : List ClauseItem} {segments : List String} {nested : Option Clause}
      {nested' : Clause} {filter : Option Filter} {arrangement : Arrangement}
      (leads : resolver.expandTarget path typeName segments filter arrangement =
        .ok (target, element))
      (below : NamesAt resolver levelType levelPath listed element target
        (nested.getD .unspecified) nested') :
      NamesAt resolver levelType levelPath listed typeName path
        ⟨allSelected, before ++ .expand segments nested filter arrangement :: after⟩
        ⟨allSelected, before ++ .expand segments (some nested') filter arrangement :: after⟩
  | belowSelect {typeName element : String} {path target : MemberPath} {allSelected : Bool}
      {before after : List ClauseItem} {segments : List String} {nested : Option Clause}
      {nested' : Clause}
      (leads : resolver.selectTarget path typeName segments = .ok (target, some element))
      (below : NamesAt resolver levelType levelPath listed element target
        (nested.getD .unspecified) nested') :
      NamesAt resolver levelType levelPath listed typeName path
        ⟨allSelected, before ++ .path segments nested :: after⟩
        ⟨allSelected, before ++ .path segments (some nested') :: after⟩

theorem Names.any_isExpand (names : Names listed items items') :
    items'.any ClauseItem.isExpand = items.any ClauseItem.isExpand := by
  rw [← names.others, List.any_filter]
  congr 1
  funext item
  cases item <;> rfl

theorem NamesAt.any_isExpand {clause clause' : Clause}
    (names : resolver.NamesAt levelType levelPath listed typeName path clause clause') :
    clause'.items.any ClauseItem.isExpand = clause.items.any ClauseItem.isExpand := by
  cases names with
  | here names => exact names.any_isExpand
  | belowExpand _ _ => simp [ClauseItem.isExpand]
  | belowSelect _ _ => simp [ClauseItem.isExpand]

theorem NamesAt.addClause {clause clause' : Clause}
    (isMembers : resolver.schema.members levelType = .ok members)
    (own : ∀ member ∈ members, resolver.schema.resolve levelType member.name = .ok member)
    (names : resolver.NamesAt levelType levelPath
      (members.filter (resolver.schema.isDefault levelPath)) typeName path clause clause')
    (added : resolver.addClause typeName path clause forest = .ok forest') :
    resolver.addClause typeName path clause' forest = .ok forest' := by
  induction names generalizing forest forest' with
  | here names => exact names.addClause isMembers own added
  | belowExpand leads below ih =>
    -- Both clauses have the same items around the one that changes.
    refine level_mono ?_ ?_ ?_ ?_ added
    · simp only [checkItems_append, checkItems]
    · simp
    · intro start expanded
      simp only [addExpands_append, addExpands_expand, leads, ok_bind, bind_eq_ok]
      rintro ⟨between, first, nested, isNested, later⟩
      refine ⟨between, first, nested, ih isNested, ?_⟩
      rw [Option.getD_some, below.any_isExpand]
      exact later
    · intro start selected
      simp only [addSelects_append, addSelects, bind_eq_ok, imp_self]
  | belowSelect leads below ih =>
    refine level_mono ?_ ?_ ?_ ?_ added
    · simp only [checkItems_append, checkItems]
    · simp
    · intro start expanded
      simp only [addExpands_append, addExpands, bind_eq_ok, imp_self]
    · intro start selected
      simp only [addSelects_append, addSelects_path, leads, ok_bind, bind_eq_ok, addSelected]
      rintro ⟨between, first, nested, isNested, later⟩
      exact ⟨between, first, nested, ih isNested, later⟩

end Resolver

/-- Naming the default members of one level changes nothing. These are all selectable members of the
type, unless the path there has passed the type of a complex one, or it is a collection whose
elements may be null. -/
theorem Forest.build_namesAt {schema : Schema} {rootType levelType : String}
    {levelPath : MemberPath} {clause : Option Clause} {clause' : Clause} {context : BindingContext}
    {maxExpandDepth : Nat} {members : List MemberDecl} {forest : Forest}
    (built : Forest.build schema rootType clause context maxExpandDepth = .ok forest)
    (isMembers : schema.members levelType = .ok members)
    (own : ∀ member ∈ members, schema.resolve levelType member.name = .ok member)
    (names : Resolver.NamesAt ⟨schema, context, maxExpandDepth⟩ levelType levelPath
      (members.filter (schema.isDefault levelPath)) rootType [] (clause.getD .unspecified)
      clause') :
    Forest.build schema rootType (some clause') context maxExpandDepth = .ok forest ∧
      (members.filter (schema.isDefault levelPath) = members.filter schema.isSelectable ↔
        ∀ member ∈ members, schema.targetKind member.ty = .ok .complex →
          ∃ element, member.ty.typeName? = some element ∧
            Resolver.passes levelPath element = false) := by
  refine ⟨?_, schema.filter_isDefault_iff levelPath members⟩
  rw [Resolver.build_eq_addClause] at built ⊢
  obtain ⟨typeDecl, registered, added⟩ := bind_eq_ok.1 built
  exact bind_eq_ok.2 ⟨typeDecl, registered, names.addClause isMembers own added⟩

def homeSchema : Schema :=
  ⟨[⟨"Person", .entity, none, [⟨"Name", .scalar .string⟩, ⟨"Home", .named "Address"⟩]⟩,
    ⟨"Address", .complex, none,
      [⟨"City", .scalar .string⟩, ⟨"Countries", .collection .list (.named "Country")⟩]⟩,
    ⟨"Country", .entity, none, [⟨"Name", .scalar .string⟩, ⟨"Capital", .named "Address"⟩]⟩]⟩

def homeCountries (nested : Option Clause) : Clause :=
  ⟨false, [.expand ["Home", "Countries"] nested none ⟨[], none, none⟩]⟩

def countryMembers : List MemberDecl :=
  [⟨"Name", .scalar .string⟩, ⟨"Capital", .named "Address"⟩]

theorem members_country : homeSchema.members "Country" = .ok countryMembers := by rfl

theorem resolve_country :
    ∀ member ∈ countryMembers, homeSchema.resolve "Country" member.name = .ok member := by
  simp only [countryMembers, List.forall_mem_cons, List.not_mem_nil, false_implies, implies_true,
    and_true]
  exact ⟨rfl, rfl⟩

theorem namesAt_homeCountries {context : BindingContext} {maxExpandDepth : Nat}
    {target : MemberPath} (listed : List MemberDecl)
    (leads : Resolver.expandTarget ⟨homeSchema, context, maxExpandDepth⟩ [] "Person"
      ["Home", "Countries"] none ⟨[], none, none⟩ = .ok (target, "Country")) :
    Resolver.NamesAt ⟨homeSchema, context, maxExpandDepth⟩ "Country" target listed "Person" []
      (homeCountries none) (homeCountries (some ⟨false, listed.map .naming⟩)) := by
  have named : Resolver.Names listed [] (listed.map .naming) := ⟨rfl, by simp, by simp⟩
  change Resolver.NamesAt _ _ _ _ _ _
    ⟨false, [] ++ .expand ["Home", "Countries"] none none ⟨[], none, none⟩ :: []⟩
    ⟨false, [] ++ .expand ["Home", "Countries"] (some ⟨false, listed.map .naming⟩) none
      ⟨[], none, none⟩ :: []⟩
  exact .belowExpand leads (.here named)

theorem Forest.build_namesAt_homeCountries :
    ∃ forest, Forest.build homeSchema "Person" (homeCountries none) ⟨false, none⟩ 5 = .ok forest ∧
      Forest.build homeSchema "Person"
        (homeCountries (some ⟨false, [.naming ⟨"Name", .scalar .string⟩]⟩)) ⟨false, none⟩ 5 =
          .ok forest := by
  obtain ⟨forest, built, -⟩ := exists_of_toOption_any
    (Forest.build homeSchema "Person" (homeCountries none) ⟨false, none⟩ 5) (fun _ => true)
    (by decide +kernel)
  obtain ⟨⟨target, element⟩, leads, isDefault⟩ := exists_of_toOption_any
    (Resolver.expandTarget ⟨homeSchema, ⟨false, none⟩, 5⟩ [] "Person" ["Home", "Countries"] none
      ⟨[], none, none⟩)
    (fun found => decide (found.2 = "Country" ∧
      countryMembers.filter (homeSchema.isDefault found.1) = [⟨"Name", .scalar .string⟩]))
    (by rfl)
  obtain ⟨rfl, isDefault⟩ := of_decide_eq_true isDefault
  have names := namesAt_homeCountries (countryMembers.filter (homeSchema.isDefault target)) leads
  obtain ⟨built', -⟩ := Forest.build_namesAt built members_country resolve_country names
  rw [isDefault] at built'
  exact ⟨forest, built, built'⟩

/-- A capital that is named is selected. -/
theorem Forest.not_build_namesAt_selectable :
    ¬ ∀ (schema : Schema) (rootType levelType : String) (levelPath : MemberPath)
        (clause : Option Clause) (clause' : Clause) (context : BindingContext)
        (maxExpandDepth : Nat) (members : List MemberDecl) (forest : Forest),
      Forest.build schema rootType clause context maxExpandDepth = .ok forest →
      schema.members levelType = .ok members →
      (∀ member ∈ members, schema.resolve levelType member.name = .ok member) →
      Resolver.NamesAt ⟨schema, context, maxExpandDepth⟩ levelType levelPath
        (members.filter schema.isSelectable) rootType [] (clause.getD .unspecified) clause' →
      ∃ forest', Forest.build schema rootType (some clause') context maxExpandDepth = .ok forest' ∧
        forest.same forest' = true := by
  intro always
  obtain ⟨forest, built, differs⟩ := exists_of_toOption_any
    (Forest.build homeSchema "Person" (homeCountries none) ⟨false, none⟩ 5)
    (fun forest => (Forest.build homeSchema "Person"
      (homeCountries (some ⟨false, (countryMembers.filter homeSchema.isSelectable).map .naming⟩))
      ⟨false, none⟩ 5).toOption.any fun forest' => !forest.same forest') (by decide +kernel)
  obtain ⟨⟨target, element⟩, leads, isCountry⟩ := exists_of_toOption_any
    (Resolver.expandTarget ⟨homeSchema, ⟨false, none⟩, 5⟩ [] "Person" ["Home", "Countries"] none
      ⟨[], none, none⟩)
    (fun found => decide (found.2 = "Country")) (by rfl)
  obtain rfl : element = "Country" := of_decide_eq_true isCountry
  obtain ⟨forest', built', same⟩ := always homeSchema "Person" "Country" target _ _ _ 5 _ forest
    built members_country resolve_country (namesAt_homeCountries _ leads)
  simp [built', same, Except.toOption] at differs

end QueryProjection
