import QueryProjection.Proofs.Expansion.Selections
import QueryProjection.Proofs.Expr.Subterms
import QueryProjection.Proofs.Forest.Inclusion
import QueryProjection.Proofs.Forest.WellFormed
import QueryProjection.Proofs.Mapping.Records
import QueryProjection.Proofs.Mapping.Source

set_option autoImplicit false

namespace QueryProjection

open Outcome

inductive Lambda.RecordAt (projection : Lambda) :
    List String → String → Expr → Nat → List (String × Expr) → Prop where
  | root {modelType : String} {bindings : List (String × Expr)}
      (isBody : projection.body = .construct (.named modelType) bindings) :
      RecordAt projection [] modelType (.parameter projection.parameter) 0 bindings
  | item {position : List String} {modelType name element : String} {source read whenNull : Expr}
      {selection : Expr} {depth : Nat} {bindings inner : List (String × Expr)} {item : Parameter}
      {ty : DataType} (record : RecordAt projection position modelType source depth bindings)
      (bound : (name, Mapping.emptyWhenNull read whenNull selection ty) ∈ bindings)
      (selects : Selects read item (.construct (.named element) inner) selection) :
      RecordAt projection (position ++ [name]) element (.parameter item) (depth + 1) inner
  | single {position : List String} {modelType name element : String} {source read whenNull : Expr}
      {depth : Nat} {bindings inner : List (String × Expr)} {ty : DataType}
      (record : RecordAt projection position modelType source depth bindings)
      (bound : (name, Mapping.emptyWhenNull read whenNull (.construct (.named element) inner) ty) ∈
        bindings) :
      RecordAt projection (position ++ [name]) element read depth inner

/-- A navigation is populated where an expansion leads through it, and any other member where some
path does, or none goes further than the record. -/
def Forest.Populates (schema : Schema) (forest : Forest) (position : List String)
    (member : MemberDecl) : Prop :=
  if schema.targetKind member.ty = .ok .entity then
    ∃ expansion ∈ forest.expansions, expansion.Begins (position ++ [member.name])
  else forest.Asks schema (position ++ [member.name]) ∨
    ¬ ∃ name, forest.Asks schema (position ++ [name])

namespace Mapping

/-- A populated member is taken from the source or from its parameter, any other one has its
default. -/
def BindsAsAsked (mapping : Mapping) (parameters : ProjectionParameters) (forest : Forest)
    (position : List String) (modelType : String) (source : Expr) (depth : Nat) (member : MemberDecl)
    (binding : String × Expr) : Prop :=
  binding.1 = member.name ∧
    (forest.Populates mapping.schema position member → ∃ fuel tree, mapping.bindingValue parameters
      (mapping.construct parameters fuel tree) modelType member source depth = .ok binding.2) ∧
    (¬ forest.Populates mapping.schema position member →
      binding.2 = .constant (Value.defaultOf member.ty) member.ty)

variable {mapping : Mapping} {parameters : ProjectionParameters} {fuel depth : Nat}
  {tree : IncludeTree} {modelType : String} {source : Expr} {member : MemberDecl}

inductive Constructs (mapping : Mapping) (parameters : ProjectionParameters) (fuel : Nat)
    (tree : IncludeTree) (element : String) (depth : Nat) : Expr → Prop where
  | items {read whenNull selection : Expr} {item : Parameter} {inner : List (String × Expr)}
      {ty : DataType} (free : read.ConstructFree) (freeNull : whenNull.ConstructFree)
      (selects : Selects read item (.construct (.named element) inner) selection)
      (constructed : mapping.construct parameters fuel tree element (.parameter item) (depth + 1) =
        .ok (.construct (.named element) inner)) :
      Constructs mapping parameters fuel tree element depth (emptyWhenNull read whenNull selection ty)
  | single {read whenNull : Expr} {inner : List (String × Expr)} {ty : DataType}
      (free : read.ConstructFree) (freeNull : whenNull.ConstructFree)
      (constructed : mapping.construct parameters fuel tree element read depth =
        .ok (.construct (.named element) inner)) :
      Constructs mapping parameters fuel tree element depth
        (emptyWhenNull read whenNull (.construct (.named element) inner) ty)

theorem Constructs.item {element element' : String} {read whenNull selection : Expr}
    {item : Parameter} {inner : List (String × Expr)} {ty : DataType}
    (constructs : mapping.Constructs parameters fuel tree element depth
      (emptyWhenNull read whenNull selection ty))
    (selects : Selects read item (.construct (.named element') inner) selection) :
    element' = element ∧ mapping.construct parameters fuel tree element (.parameter item) (depth + 1) =
      .ok (.construct (.named element) inner) := by
  generalize same : emptyWhenNull read whenNull selection ty = value at constructs
  cases constructs with
  | items _ _ selects' constructed =>
    simp only [emptyWhenNull, Expr.conditional.injEq] at same
    obtain ⟨-, -, rfl, -⟩ := same
    obtain ⟨-, rfl, body⟩ := selects.unique selects'
    cases body
    exact ⟨rfl, constructed⟩
  | single _ _ _ =>
    simp only [emptyWhenNull, Expr.conditional.injEq] at same
    obtain ⟨-, -, rfl, -⟩ := same
    cases selects

theorem Constructs.record {element element' : String} {read whenNull : Expr}
    {inner : List (String × Expr)} {ty : DataType}
    (constructs : mapping.Constructs parameters fuel tree element depth
      (emptyWhenNull read whenNull (.construct (.named element') inner) ty)) :
    element' = element ∧ read.ConstructFree ∧
      mapping.construct parameters fuel tree element read depth =
        .ok (.construct (.named element) inner) := by
  generalize same : emptyWhenNull read whenNull (.construct (.named element') inner) ty = value
    at constructs
  cases constructs with
  | items _ _ selects _ =>
    simp only [emptyWhenNull, Expr.conditional.injEq] at same
    obtain ⟨-, -, rfl, -⟩ := same
    cases selects
  | single free _ constructed =>
    simp only [emptyWhenNull, Expr.equalsNull, Expr.conditional.injEq, Expr.binary.injEq,
      Expr.construct.injEq, DataType.named.injEq] at same
    obtain ⟨⟨-, rfl, -⟩, -, ⟨rfl, rfl⟩, -⟩ := same
    exact ⟨rfl, free, constructed⟩

theorem Binds.constructs {name : String} {value : Expr} (free : source.ConstructFree)
    (binds : mapping.Binds parameters fuel tree modelType source depth member (name, value)) :
    value.ConstructFree ∨ ∃ child element, mapping.includeFor tree member = .ok (some child) ∧
      member.ty.typeName? = some element ∧
      mapping.Constructs parameters fuel child element depth value := by
  obtain ⟨-, ⟨-, rfl⟩ | ⟨child, included, bound⟩⟩ := binds
  · exact .inl trivial
  simp only at bound
  cases path : mapping.mapPath? modelType member.name with
  | none =>
    obtain ⟨-, value, -, rfl⟩ := bindingValue_of_parameter path bound
    exact .inl trivial
  | some names =>
    rw [bindingValue_of_mapPath path] at bound
    obtain ⟨read, reads, fits⟩ := bind_eq_ok.1 bound
    have freeRead := Expr.stable_constructFree.readMapped free reads
    cases fitsBy_of_fit fits with
    | same _ _ => exact .inl freeRead
    | converted _ _ => exact .inl freeRead
    | items holds _ constructed selects =>
      subst selects
      obtain ⟨_, inner, _, _, rfl, -⟩ := construct_eq_ok constructed
      exact .inr ⟨child, _, included, holds.named,
        .items freeRead trivial (Selects.coercedTo _ _ _ _) constructed⟩
    | record holds _ constructed =>
      obtain ⟨_, inner, _, _, rfl, -⟩ := construct_eq_ok constructed
      exact .inr ⟨child, _, included, holds.named, .single freeRead trivial constructed⟩

section Positions

variable {schema : Schema} {forest : Forest} {paths : List MemberPath} {rootType : String}
  {position : List String} {projection : Lambda} {bindings : List (String × Expr)}

theorem includeFor_treeAt (once : mapping.schema.DeclaresOnce)
    (isIncluded : ∀ path, path ∈ paths ↔ forest.Includes mapping.schema path)
    (walks : ∀ path, forest.Includes mapping.schema path → Walk mapping.schema rootType path)
    (reaches : mapping.schema.Reaches rootType position modelType)
    (listed : mapping.schema.Lists modelType member) {found : Option IncludeTree}
    (included : mapping.includeFor (Forest.treeAt paths position) member = .ok found) :
    (forest.Populates mapping.schema position member →
      found = some (Forest.treeAt paths (position ++ [member.name]))) ∧
    (¬ forest.Populates mapping.schema position member → found = none) := by
  have navigates := Forest.expansion_of_asks once walks reaches listed
  unfold includeFor at included
  rcases Forest.child?_treeAt once isIncluded walks reaches listed with
    ⟨asks, child⟩ | ⟨notAsked, noChild, empty⟩
  · simp only [child, Except.ok.injEq] at included
    subst included
    refine ⟨fun _ => rfl, fun unpopulated => absurd ?_ unpopulated⟩
    unfold Forest.Populates
    split
    next entity => exact navigates entity asks
    next => exact .inl asks
  · -- Nothing is asked for below the member, so it is populated only if all default members are.
    have noExpansion : ¬ ∃ expansion ∈ forest.expansions,
        expansion.Begins (position ++ [member.name]) :=
      fun ⟨expansion, isExpansion, begins⟩ => notAsked ⟨expansion, .inl isExpansion, begins⟩
    have leaf := Forest.isLeaf_treeAt once isIncluded walks reaches
    simp only [noChild] at included
    rw [empty]
    unfold Forest.Populates
    by_cases isLeaf : (Forest.treeAt paths position).isLeaf = true
    · simp only [isLeaf, if_true, bind_eq_ok, pure_eq_ok] at included
      obtain ⟨kind, isKind, rfl⟩ := included
      by_cases entity : kind = .entity
      · simp [isKind, entity, noExpansion]
      · simp [isKind, entity, leaf.1 isLeaf]
    · simp only [isLeaf, if_false, Except.ok.injEq, Bool.false_eq_true] at included
      have further : ∃ name, forest.Asks mapping.schema (position ++ [name]) := by
        by_contra nothing
        exact isLeaf (leaf.2 nothing)
      simp [← included, noExpansion, notAsked, further]

theorem RecordAt.constructed (once : mapping.schema.DeclaresOnce)
    (isIncluded : ∀ path, path ∈ paths ↔ forest.Includes mapping.schema path)
    (walks : ∀ path, forest.Includes mapping.schema path → Walk mapping.schema rootType path)
    (root : mapping.construct parameters fuel (Forest.treeAt paths []) rootType
      (.parameter projection.parameter) 0 = .ok projection.body)
    (record : projection.RecordAt position modelType source depth bindings) :
    mapping.schema.Reaches rootType position modelType ∧ source.ConstructFree ∧
      ∃ fuel, mapping.construct parameters fuel (Forest.treeAt paths position) modelType source depth =
        .ok (.construct (.named modelType) bindings) := by
  -- A binding with records in it leads one member further.
  have step {position : List String} {modelType name : String} {source value : Expr} {depth : Nat}
      {bindings : List (String × Expr)} (reaches : mapping.schema.Reaches rootType position modelType)
      (free : source.ConstructFree) {fuel : Nat}
      (constructed : mapping.construct parameters fuel (Forest.treeAt paths position) modelType source
        depth = .ok (.construct (.named modelType) bindings))
      (bound : (name, value) ∈ bindings) (notFree : ¬ value.ConstructFree) :
      ∃ element fuel', mapping.schema.Reaches rootType (position ++ [name]) element ∧
        mapping.Constructs parameters fuel' (Forest.treeAt paths (position ++ [name])) element depth
          value := by
    obtain ⟨fuel', bindings', members, -, same, listed, binds⟩ := construct_eq_ok constructed
    cases same
    obtain ⟨member, isMember, binds⟩ := exists_of_forall₂ binds.flip bound
    have lists : mapping.schema.Lists modelType member := ⟨members, listed, isMember⟩
    have named : name = member.name := binds.1
    rcases Binds.constructs free binds with freeValue | ⟨child, element, included, leads, constructs⟩
    · exact absurd freeValue notFree
    · obtain ⟨populated, unpopulated⟩ :=
        includeFor_treeAt once isIncluded walks reaches lists included
      by_cases populates : forest.Populates mapping.schema position member
      · cases populated populates
        exact named ▸ ⟨element, fuel', reaches.member lists leads, constructs⟩
      · cases unpopulated populates
  induction record with
  | @root modelType bindings isBody =>
    rw [isBody] at root
    obtain ⟨_, _, _, -, same, -⟩ := construct_eq_ok root
    cases same
    exact ⟨.root, trivial, fuel, root⟩
  | item record bound selects ih =>
    obtain ⟨reaches, free, fuel', constructed⟩ := ih
    obtain ⟨element, fuel'', reaches, constructs⟩ := step reaches free constructed bound
      fun freeValue => selects.not_constructFree freeValue.2.2
    obtain ⟨rfl, constructed⟩ := constructs.item selects
    exact ⟨reaches, trivial, fuel'', constructed⟩
  | single record bound ih =>
    obtain ⟨reaches, free, fuel', constructed⟩ := ih
    obtain ⟨element, fuel'', reaches, constructs⟩ := step reaches free constructed bound
      fun freeValue => freeValue.2.2
    obtain ⟨rfl, free, constructed⟩ := constructs.record
    exact ⟨reaches, free, fuel'', constructed⟩

theorem RecordAt.of_subterm (fuel : Nat) {tree : IncludeTree} {position : List String}
    {modelType : String} {source : Expr} {depth : Nat} {bindings inner : List (String × Expr)}
    {ty : DataType} (record : projection.RecordAt position modelType source depth bindings)
    (free : source.ConstructFree)
    (constructed : mapping.construct parameters fuel tree modelType source depth =
      .ok (.construct (.named modelType) bindings))
    (isBelow : .construct ty inner ∈ (Expr.construct (.named modelType) bindings).subterms) :
    ∃ position modelType source depth, ty = .named modelType ∧
      projection.RecordAt position modelType source depth inner := by
  induction fuel generalizing tree position modelType source depth bindings with
  | zero => simp [construct] at constructed
  | succ fuel ih =>
    obtain ⟨_, _, members, fuels, same, -, binds⟩ := construct_eq_ok constructed
    cases fuels
    cases same
    rw [Expr.subterms, List.mem_cons, Expr.mem_bindingSubterms] at isBelow
    rcases isBelow with itself | ⟨⟨name, value⟩, bound, isBelow⟩
    · obtain ⟨rfl, rfl⟩ := Expr.construct.inj itself
      exact ⟨position, modelType, source, depth, rfl, record⟩
    · obtain ⟨member, -, binds⟩ := exists_of_forall₂ binds.flip bound
      rcases Binds.constructs free binds with freeValue | ⟨child, element, -, -, constructs⟩
      · exact absurd isBelow (Expr.not_mem_subterms value freeValue ty inner)
      · cases constructs with
        | @items read whenNull selection item _ _ freeRead freeNull selects constructed =>
          refine ih (record.item bound selects) trivial constructed ?_
          -- The test for null and the null itself construct nothing, so the record is in the items.
          have notTest := Expr.not_mem_subterms read.equalsNull ⟨freeRead, trivial⟩ ty inner
          have notNull := Expr.not_mem_subterms whenNull freeNull ty inner
          simp only [emptyWhenNull, Expr.subterms, List.mem_cons, List.mem_append, reduceCtorEq,
            notTest, notNull, false_or] at isBelow
          exact selects.mem_body freeRead isBelow
        | @single read whenNull _ _ freeRead freeNull constructed =>
          refine ih (record.single bound) freeRead constructed ?_
          have notTest := Expr.not_mem_subterms read.equalsNull ⟨freeRead, trivial⟩ ty inner
          have notNull := Expr.not_mem_subterms whenNull freeNull ty inner
          simpa only [emptyWhenNull, Expr.subterms, List.mem_cons, List.mem_append, reduceCtorEq,
            notTest, notNull, false_or] using isBelow

end Positions

/-- The records that a projection constructs are those at its positions, and each of them binds every
member of its type as the forest asks. -/
theorem binds_as_asked {sourceType : String} {clause : Option Clause} {context : BindingContext}
    {maxExpandDepth : Nat} {forest : Forest} {includes : List Lambda} {projection : Lambda}
    (once : mapping.schema.DeclaresOnce)
    (built : Forest.build mapping.schema modelType clause context maxExpandDepth = .ok forest)
    (included : Include.ofForest mapping.schema modelType forest = .ok includes)
    (projected : mapping.project sourceType modelType includes parameters = .ok projection) :
    (∀ position typeName source depth bindings,
      projection.RecordAt position typeName source depth bindings →
        ∃ members, mapping.schema.members typeName = .ok members ∧
          List.Forall₂ (mapping.BindsAsAsked parameters forest position typeName source depth)
            members bindings) ∧
    ∀ ty bindings, .construct ty bindings ∈ projection.body.subterms →
      ∃ position typeName source depth, ty = .named typeName ∧
        projection.RecordAt position typeName source depth bindings := by
  simp only [project, bind_eq_ok, pure_eq_ok] at projected
  obtain ⟨-, -, tree, made, body, root, rfl⟩ := projected
  obtain ⟨paths, isIncluded, walks, rfl⟩ :=
    Forest.treeAt_root once (Forest.build_leads built) included made
  constructor
  · intro position typeName source depth bindings record
    obtain ⟨reaches, -, fuel, constructed⟩ :=
      RecordAt.constructed once isIncluded walks root record
    obtain ⟨fuel', bindings', members, -, same, listed, binds⟩ := construct_eq_ok constructed
    cases same
    refine ⟨members, listed, List.forall₂_iff_zip.2 ⟨binds.length_eq, ?_⟩⟩
    intro member binding isPair
    have lists : mapping.schema.Lists typeName member := ⟨members, listed, (List.of_mem_zip isPair).1⟩
    obtain ⟨named, bound⟩ := (List.forall₂_iff_zip.1 binds).2 isPair
    have found {found : Option IncludeTree} :=
      @includeFor_treeAt mapping typeName member forest paths modelType position once isIncluded
        walks reaches lists found
    rcases bound with ⟨omitted, isDefault⟩ | ⟨child, included, taken⟩
    · refine ⟨named, fun populates => ?_, fun _ => isDefault⟩
      cases (found omitted).1 populates
    · refine ⟨named, fun _ => ⟨fuel', child, taken⟩, fun unpopulated => ?_⟩
      cases (found included).2 unpopulated
  · intro ty bindings isBelow
    obtain ⟨_, inner, _, -, rfl, -⟩ := construct_eq_ok root
    exact RecordAt.of_subterm _ (.root rfl) trivial root isBelow

end Mapping

def petOwnerSchema : Schema :=
  ⟨[⟨"Owner", .entity, none, [⟨"Name", .scalar .string⟩, ⟨"Home", .named "Address"⟩,
      ⟨"Pets", .collection .list (.named "Pet")⟩]⟩,
    ⟨"Address", .complex, none, [⟨"Street", .scalar .string⟩, ⟨"City", .scalar .string⟩]⟩,
    ⟨"Pet", .entity, none, [⟨"Name", .scalar .string⟩, ⟨"Owner", .named "Owner"⟩]⟩]⟩

def projectOwners (clause : Option Clause) : Outcome (Forest × List Lambda × Lambda) := do
  let mapping := Mapping.ofSchema petOwnerSchema
  let forest ← Forest.build mapping.schema "Owner" clause ⟨true, none⟩ 4
  let includes ← Include.ofForest mapping.schema "Owner" forest
  return (forest, includes, ← mapping.project "Owner" "Owner" includes [])

theorem projectOwners_eq_ok {clause : Option Clause} {forest : Forest} {includes : List Lambda}
    {projection : Lambda} (made : projectOwners clause = .ok (forest, includes, projection)) :
    Forest.build petOwnerSchema "Owner" clause ⟨true, none⟩ 4 = .ok forest ∧
      Include.ofForest petOwnerSchema "Owner" forest = .ok includes ∧
      (Mapping.ofSchema petOwnerSchema).project "Owner" "Owner" includes [] = .ok projection := by
  simp only [projectOwners, bind_eq_ok, pure_eq_ok, Prod.mk.injEq] at made
  obtain ⟨_, built, _, included, _, projected, rfl, rfl, rfl⟩ := made
  exact ⟨built, included, projected⟩

def Expr.constructedType? : Expr → Option String
  | .construct (.named name) _ => some name
  | _ => none

def Expr.firstReadType? : Expr → Option String
  | .construct (.named name) ((_, .member _ _ _) :: _) => some name
  | _ => none

def cityAndPets : Option Clause :=
  some ⟨false, [.path ["Home"] (some ⟨false, [.path ["City"] none]⟩),
    .expand ["Pets"] (some ⟨false, [.path ["Name"] none]⟩) none ⟨[], none, none⟩]⟩

theorem binds_as_asked_pets :
    ∃ forest includes projection,
      Forest.build petOwnerSchema "Owner" cityAndPets ⟨true, none⟩ 4 = .ok forest ∧
      Include.ofForest petOwnerSchema "Owner" forest = .ok includes ∧
      (Mapping.ofSchema petOwnerSchema).project "Owner" "Owner" includes [] = .ok projection ∧
      ∃ position source depth bindings members,
        projection.RecordAt position "Pet" source depth bindings ∧
        petOwnerSchema.members "Pet" = .ok members ∧
        List.Forall₂ ((Mapping.ofSchema petOwnerSchema).BindsAsAsked [] forest position "Pet" source
          depth) members bindings := by
  obtain ⟨⟨forest, includes, projection⟩, made, hasPet⟩ := exists_of_toOption_any
    (projectOwners cityAndPets)
    (fun made => made.2.2.body.subterms.any fun expr => expr.constructedType? == some "Pet")
    (by decide +kernel)
  obtain ⟨built, included, projected⟩ := projectOwners_eq_ok made
  have once : (Mapping.ofSchema petOwnerSchema).schema.DeclaresOnce := by decide +kernel
  obtain ⟨binds, positions⟩ := Mapping.binds_as_asked once built included projected
  obtain ⟨expr, isBelow, isPet⟩ := List.any_eq_true.1 hasPet
  rw [beq_iff_eq] at isPet
  unfold Expr.constructedType? at isPet
  split at isPet
  next name inner =>
    obtain ⟨position, typeName, source, depth, same, record⟩ := positions _ _ isBelow
    cases same
    cases isPet
    obtain ⟨members, listed, bound⟩ := binds _ _ _ _ _ record
    exact ⟨forest, includes, projection, built, included, projected, position, source, depth, inner,
      members, record, listed, bound⟩
  next => contradiction

def petsUnexpanded : Option Clause :=
  some ⟨false, [.path ["Pets"] none]⟩

theorem not_default_unless_asked :
    ¬ ∀ (mapping : Mapping) (parameters : ProjectionParameters) (sourceType modelType : String)
        (clause : Option Clause) (context : BindingContext) (maxExpandDepth : Nat) (forest : Forest)
        (includes : List Lambda) (projection : Lambda), mapping.schema.DeclaresOnce →
      Forest.build mapping.schema modelType clause context maxExpandDepth = .ok forest →
      Include.ofForest mapping.schema modelType forest = .ok includes →
      mapping.project sourceType modelType includes parameters = .ok projection →
      ∀ position typeName source depth bindings members,
        projection.RecordAt position typeName source depth bindings →
        mapping.schema.members typeName = .ok members →
        List.Forall₂ (fun member binding =>
          mapping.schema.targetKind member.ty ≠ .ok .entity →
            ¬ forest.Asks mapping.schema (position ++ [member.name]) →
            binding.2 = Expr.constant (Value.defaultOf member.ty) member.ty) members bindings := by
  intro always
  obtain ⟨⟨forest, includes, projection⟩, made, test⟩ := exists_of_toOption_any
    (projectOwners petsUnexpanded)
    (fun made => made.1.expansions.isEmpty &&
      made.1.selects.all (fun path => (Include.liesOnExpansions petOwnerSchema [] [] path).toOption ==
        some false) &&
      made.2.2.body.firstReadType? == some "Owner") (by decide +kernel)
  obtain ⟨built, included, projected⟩ := projectOwners_eq_ok made
  simp only [Bool.and_eq_true, List.isEmpty_iff, List.all_eq_true, beq_iff_eq] at test
  obtain ⟨⟨noExpansion, unreached⟩, shape⟩ := test
  have nothing (start : List String) : ¬ forest.Asks petOwnerSchema start := by
    rintro ⟨path, expanded | ⟨selected, lies⟩, -⟩
    · simp [noExpansion] at expanded
    · rw [noExpansion] at lies
      simpa [lies, Except.toOption] using unreached path selected
  obtain ⟨members, listed, isFirst⟩ := exists_of_toOption_any (petOwnerSchema.members "Owner")
    (fun members => members.head? == some ⟨"Name", .scalar .string⟩) (by rfl)
  unfold Expr.firstReadType? at shape
  split at shape
  next isBody =>
    cases shape
    have binds := always (.ofSchema petOwnerSchema) [] _ _ _ _ _ _ _ _ (by decide +kernel) built
      included projected _ _ _ _ _ members (.root isBody) listed
    cases binds with
    | cons first _ =>
      cases beq_iff_eq.1 isFirst
      exact Expr.noConfusion (first (by decide +kernel) (nothing _))
  next => contradiction

end QueryProjection
