import Mathlib.Data.List.ProdSigma
import Mathlib.Logic.Relation
import QueryProjection.Forest.Resolution
import QueryProjection.Proofs.Mapping.Nesting
import QueryProjection.Proofs.Schema.Lookup

set_option autoImplicit false

namespace QueryProjection

open Outcome Relation

namespace DataType

theorem nonNull_mem_layers (ty : DataType) : ty.nonNull ∈ ty.layers := by
  induction ty with
  | nullable inner ih => exact ih
  | _ => exact List.mem_cons_self

theorem elementType_mem_layers {ty layer : DataType} (isLayer : layer ∈ ty.layers) :
    layer.elementType.nonNull ∈ ty.layers := by
  induction ty with
  | nullable inner ih => exact ih isLayer
  | collection kind element ih =>
    rcases List.mem_cons.1 isLayer with rfl | later
    · exact List.mem_cons_of_mem _ element.nonNull_mem_layers
    · exact List.mem_cons_of_mem _ (ih later)
  | _ =>
    obtain rfl := List.mem_singleton.1 isLayer
    exact List.mem_cons_self

end DataType

namespace Schema

variable {schema : Schema} {ty : DataType} {member : MemberDecl}

theorem elementType_mem_readTypes (isRead : ty ∈ schema.readTypes) :
    ty.elementType.nonNull ∈ schema.readTypes := by
  simp only [readTypes, List.mem_flatMap] at isRead ⊢
  obtain ⟨typeDecl, registered, member, declared, isLayer⟩ := isRead
  exact ⟨typeDecl, registered, member, declared, DataType.elementType_mem_layers isLayer⟩

theorem mem_readTypes_of_member? {typeName name : String}
    (found : schema.member? typeName name = some member) : member.ty.nonNull ∈ schema.readTypes := by
  obtain ⟨typeDecl, onChain, isFound⟩ := List.exists_of_findSome?_eq_some found
  have registered := baseChain_declared schema _ _ _ typeDecl onChain
  have declared : member ∈ typeDecl.members := List.mem_of_find?_eq_some isFound
  simp only [readTypes, List.mem_flatMap]
  exact ⟨typeDecl, registered, member, declared, member.ty.nonNull_mem_layers⟩

theorem mem_readTypes_of_memberAt? {names : List String}
    (found : schema.memberAt? ty names = some member) : member.ty.nonNull ∈ schema.readTypes := by
  fun_induction memberAt? schema ty names with
  | case1 => contradiction
  | case2 ty name =>
    obtain ⟨typeName, -, found⟩ := Option.bind_eq_some_iff.1 found
    exact mem_readTypes_of_member? found
  | case3 ty name next rest ih =>
    obtain ⟨typeName, -, later⟩ := Option.bind_eq_some_iff.1 found
    obtain ⟨first, -, found⟩ := Option.bind_eq_some_iff.1 later
    exact ih first found

theorem registered_of_members {typeName : String} {members : List MemberDecl}
    (listed : schema.members typeName = .ok members) :
    typeName ∈ schema.types.map TypeDecl.name := by
  obtain ⟨chain, isChain, -⟩ := bind_eq_ok.1 listed
  unfold ancestry chainOf baseChain at isChain
  cases found : schema.find? typeName with
  | none => simp [found] at isChain
  | some typeDecl =>
    exact List.mem_map.2 ⟨typeDecl, List.mem_of_find?_eq_some found,
      by simpa using List.find?_some found⟩

end Schema

namespace IncludeTree

theorem depth_lt_of_child? {tree child : IncludeTree} {name : String}
    (found : tree.child? name = some child) : child.depth < tree.depth := by
  obtain ⟨children⟩ := tree
  obtain ⟨entry, isFound, rfl⟩ := Option.map_eq_some_iff.1 found
  have isChild : entry ∈ children := List.mem_of_find?_eq_some isFound
  rw [depth]
  clear found isFound
  induction children with
  | nil => simp at isChild
  | cons first rest ih =>
    rw [depthBelow]
    rcases List.mem_cons.1 isChild with rfl | later
    · exact Nat.lt_of_lt_of_le (Nat.lt_succ_self _) (Nat.le_max_left _ _)
    · exact Nat.lt_of_lt_of_le (ih later) (Nat.le_max_right _ _)

theorem eq_empty_of_isLeaf {tree : IncludeTree} (leaf : tree.isLeaf = true) : tree = empty := by
  obtain ⟨children⟩ := tree
  exact congrArg node (List.isEmpty_iff.1 leaf)

end IncludeTree

namespace Mapping

variable {mapping : Mapping} {parameters : ProjectionParameters} {sourceType : String}
  {root site site' later : RecordSite} {member : MemberDecl} {tree child : IncludeTree}

theorem includeFor_eq_some (included : mapping.includeFor tree member = .ok (some child)) :
    child.depth < tree.depth ∨
      tree.isLeaf = true ∧ child = .empty ∧ mapping.schema.targetKind member.ty ≠ .ok .entity := by
  unfold includeFor at included
  split at included
  next child' found =>
    cases included
    exact .inl (IncludeTree.depth_lt_of_child? found)
  next =>
    split at included
    next leaf =>
      obtain ⟨kind, isKind, included⟩ := bind_eq_ok.1 included
      split at included <;> simp_all [pure, Except.pure]
    next => simp at included

@[simp] theorem RecordSite.below_tree {element : String} {read : Expr} :
    (site.below member child element read).tree = child := by
  unfold RecordSite.below
  split <;> rfl

theorem Enters.treeBelow (enters : mapping.Enters parameters site later) :
    later.tree.depth < site.tree.depth ∨ site.tree.isLeaf = true ∧ later.tree = .empty := by
  obtain ⟨-, -, included, reads, holds⟩ := enters
  rw [RecordSite.below_tree]
  exact (includeFor_eq_some included).imp_right fun whole => ⟨whole.1, whole.2.1⟩

theorem Enters.whole (enters : mapping.Enters parameters site later)
    (leaf : site.tree.isLeaf = true) : later.tree = .empty := by
  rcases enters.treeBelow with smaller | ⟨-, whole⟩
  · rw [IncludeTree.eq_empty_of_isLeaf leaf] at smaller
    exact absurd smaller (Nat.not_lt_zero _)
  · exact whole

theorem whole_of_transGen (entered : TransGen (mapping.Enters parameters) site later)
    (leaf : site.tree.isLeaf = true) : later.tree = .empty := by
  induction entered with
  | single enters => exact enters.whole leaf
  | tail _ enters ih =>
    refine enters.whole ?_
    rw [ih]
    rfl

def RecordSite.Typed (mapping : Mapping) (sourceType : String) (site : RecordSite) : Prop :=
  site.source.type.nonNull ∈ .named sourceType :: mapping.schema.readTypes

theorem readMapped_typed {read : Expr} {modelType name : String}
    (reads : mapping.readMapped modelType name site.source = .ok read) :
    read = site.source ∨ read.type.nonNull ∈ mapping.schema.readTypes := by
  obtain ⟨names, path⟩ := mapPath?_of_readMapped reads
  rcases (readMapped_eq path site.source).1 reads with ⟨-, same⟩ | ⟨first, rest, next, rfl, isFirst, later⟩
  · exact .inl same
  · obtain ⟨typeName, found, named, isFound, rfl⟩ := readSame_eq_ok isFirst
    obtain ⟨member, ends, same⟩ := readSteps_type named isFound rfl later
    exact .inr (same ▸ Schema.mem_readTypes_of_memberAt? ends)

theorem RecordSite.Typed.below (typed : site.Typed mapping sourceType)
    (enters : mapping.Enters parameters site later) : later.Typed mapping sourceType := by
  obtain ⟨-, -, @⟨child, read, element, included, reads, holds⟩⟩ := enters
  have isRead : read.type.nonNull ∈ .named sourceType :: mapping.schema.readTypes := by
    rcases readMapped_typed reads with rfl | known
    · exact typed
    · exact List.mem_cons_of_mem _ known
  unfold RecordSite.Typed RecordSite.below
  split
  next =>
    have isItem : read.type.elementType.nonNull = read.type.nonNull.elementType.nonNull := by
      rw [DataType.elementType_congr (DataType.nonNull_nonNull read.type)]
    change read.type.elementType.nonNull ∈ _
    rw [isItem]
    rcases List.mem_cons.1 isRead with root | known
    · rw [root]
      exact List.mem_cons_self
    · exact List.mem_cons_of_mem _ (Schema.elementType_mem_readTypes known)
  next => exact isRead

/-- Below the includes the construction comes back to a model type and a type of the source. -/
def Recurs (mapping : Mapping) (parameters : ProjectionParameters) (root : RecordSite) : Prop :=
  ∃ site later, ReflTransGen (mapping.Enters parameters) root site ∧ site.tree.isLeaf = true ∧
    TransGen (mapping.Enters parameters) site later ∧ later.modelType = site.modelType ∧
      later.source.type.nonNull = site.source.type.nonNull

def typePairs (mapping : Mapping) (sourceType : String) : List (String × DataType) :=
  mapping.schema.types.map TypeDecl.name ×ˢ (.named sourceType :: mapping.schema.readTypes)

theorem constructionDepth_eq (mapping : Mapping) (tree : IncludeTree) (sourceType : String) :
    mapping.constructionDepth tree = tree.depth + (mapping.typePairs sourceType).length + 1 := by
  simp [constructionDepth, typePairs, List.length_product]

def Passes (mapping : Mapping) (parameters : ProjectionParameters) (root site : RecordSite)
    (pair : String × DataType) : Prop :=
  ∃ earlier : RecordSite, ReflTransGen (mapping.Enters parameters) root earlier ∧
    earlier.tree.isLeaf = true ∧ TransGen (mapping.Enters parameters) earlier site ∧
      pair = (earlier.modelType, earlier.source.type.nonNull)

theorem Passes.enters {pair : String × DataType} (passes : mapping.Passes parameters root site pair)
    (enters : mapping.Enters parameters site later) : mapping.Passes parameters root later pair := by
  obtain ⟨earlier, fromRoot, leaf, entered, same⟩ := passes
  exact ⟨earlier, fromRoot, leaf, entered.tail enters, same⟩

theorem nestsTo_le_of_not_recurs {nested : Nat} {passed : List (String × DataType)}
    (ends : ¬ mapping.Recurs parameters root)
    (reached : ReflTransGen (mapping.Enters parameters) root site)
    (typed : site.Typed mapping sourceType) (apart : passed.Nodup)
    (known : passed ⊆ mapping.typePairs sourceType)
    (above : ∀ pair ∈ passed, mapping.Passes parameters root site pair)
    (nests : mapping.NestsTo parameters site nested) :
    nested + passed.length ≤ site.tree.depth + (mapping.typePairs sourceType).length := by
  -- Each record goes down in the tree, or it is constructed whole and passes one more pair.
  induction nests generalizing passed with
  | here site =>
    have most := (apart.subperm known).length_le
    omega
  | @deeper site later nested enters nests ih =>
    have reachedLater := reached.tail enters
    have aboveLater := fun pair isPassed => (above pair isPassed).enters enters
    rcases enters.treeBelow with smaller | ⟨leaf, whole⟩
    · have most := ih reachedLater (typed.below enters) apart known aboveLater
      omega
    · -- A pair that has been passed would be one that the construction comes back to.
      have new : (site.modelType, site.source.type.nonNull) ∉ passed := by
        intro isPassed
        obtain ⟨earlier, fromRoot, leafEarlier, entered, same⟩ := above _ isPassed
        obtain ⟨sameModel, sameSource⟩ := Prod.mk.inj same
        exact ends ⟨earlier, site, fromRoot, leafEarlier, entered, sameModel, sameSource⟩
      have isPair : (site.modelType, site.source.type.nonNull) ∈ mapping.typePairs sourceType := by
        obtain ⟨listed, -, -⟩ := enters
        exact List.mem_product.2 ⟨Schema.registered_of_members listed, typed⟩
      have most := ih reachedLater (typed.below enters) (List.nodup_cons.2 ⟨new, apart⟩)
        (List.cons_subset.2 ⟨isPair, known⟩)
        (List.forall_mem_cons.2 ⟨⟨site, reached, leaf, .single enters, rfl⟩, aboveLater⟩)
      have noDepth : later.tree.depth = 0 := by
        rw [whole]
        rfl
      rw [List.length_cons] at most
      omega

theorem NestsTo.of_le {nested fewer : Nat} (nests : mapping.NestsTo parameters site nested)
    (less : fewer ≤ nested) : mapping.NestsTo parameters site fewer := by
  induction nests generalizing fewer with
  | here site =>
    obtain rfl : fewer = 0 := by omega
    exact .here site
  | deeper enters nests ih =>
    cases fewer with
    | zero => exact .here _
    | succ fewer => exact .deeper enters (ih (by omega))

theorem NestsTo.of_transGen {nested : Nat}
    (entered : TransGen (mapping.Enters parameters) site later)
    (nests : mapping.NestsTo parameters later nested) :
    mapping.NestsTo parameters site (nested + 1) := by
  induction entered using TransGen.head_induction_on with
  | single enters => exact .deeper enters nests
  | head enters _ ih => exact .deeper enters (ih.of_le (Nat.le_succ nested))

theorem RecordSite.Alike.transGen (alike : site.Alike site')
    (entered : TransGen (mapping.Enters parameters) site later) :
    ∃ later', TransGen (mapping.Enters parameters) site' later' ∧ later.Alike later' := by
  induction entered with
  | single enters =>
    obtain ⟨later', enters', alikeLater⟩ := enters.alike alike
    exact ⟨later', .single enters', alikeLater⟩
  | tail _ enters ih =>
    obtain ⟨before', entered', alikeBefore⟩ := ih
    obtain ⟨later', enters', alikeLater⟩ := enters.alike alikeBefore
    exact ⟨later', entered'.tail enters', alikeLater⟩

theorem RecordSite.Alike.trans {site'' : RecordSite} (first : site.Alike site')
    (second : site'.Alike site'') : site.Alike site'' :=
  ⟨first.tree.trans second.tree, first.modelType.trans second.modelType,
    Eq.trans first.source second.source⟩

theorem nestsTo_of_alike (entered : TransGen (mapping.Enters parameters) site later)
    (alike : site.Alike later) (nested : Nat) : mapping.NestsTo parameters site nested := by
  suffices onwards : ∀ site', site.Alike site' → mapping.NestsTo parameters site' nested from
    onwards site ⟨rfl, rfl, rfl⟩
  induction nested with
  | zero => exact fun site' _ => .here site'
  | succ nested ih =>
    intro site' alikeSite
    obtain ⟨later', entered', alikeLater⟩ := alikeSite.transGen entered
    exact .of_transGen entered' (ih later' (alike.trans alikeLater))

theorem nestsTo_of_recurs (recurs : mapping.Recurs parameters root) (nested : Nat) :
    mapping.NestsTo parameters root nested := by
  obtain ⟨site, later, reached, leaf, entered, sameModel, sameSource⟩ := recurs
  have alike : site.Alike later :=
    ⟨(IncludeTree.eq_empty_of_isLeaf leaf).trans (whole_of_transGen entered leaf).symm,
      sameModel.symm, sameSource.symm⟩
  have nests := nestsTo_of_alike entered alike nested
  rcases reflTransGen_iff_eq_or_transGen.1 reached with same | fromRoot
  · exact same ▸ nests
  · exact (NestsTo.of_transGen fromRoot nests).of_le (Nat.le_succ nested)

def rootSite (sourceType modelType : String) (tree : IncludeTree) : RecordSite :=
  ⟨tree, modelType, .parameter ⟨itemNameAtDepth 0, .named sourceType⟩, 0⟩

theorem nestsTo_lt_of_not_recurs {modelType : String} {nested : Nat}
    (ends : ¬ mapping.Recurs parameters (rootSite sourceType modelType tree))
    (nests : mapping.NestsTo parameters (rootSite sourceType modelType tree) nested) :
    nested < mapping.constructionDepth tree := by
  have most := nestsTo_le_of_not_recurs ends .refl List.mem_cons_self List.nodup_nil
    (List.nil_subset (mapping.typePairs sourceType)) (by simp) nests
  rw [mapping.constructionDepth_eq tree sourceType]
  exact Nat.lt_succ_of_le most

theorem project_eq {modelType : String} {typeDecl : TypeDecl} {includes : List Lambda}
    (registered : mapping.schema.get sourceType = .ok typeDecl)
    (made : includeTree includes = .ok tree) :
    mapping.project sourceType modelType includes parameters = (do
      return ⟨⟨itemNameAtDepth 0, .named sourceType⟩,
        ← (rootSite sourceType modelType tree).constructedBy
          (mapping.construct parameters (mapping.constructionDepth tree))⟩) := by
  simp only [project, registered, made, ok_bind]
  rfl

/-- A projection ends unless it recurs. If it does not recur, its records nest less deep than the
construction is unrolled, and nothing depends on what would come after. If it does, they nest without
a bound and no fuel is enough. -/
theorem project_ends_iff {modelType : String} {typeDecl : TypeDecl} {includes : List Lambda}
    (registered : mapping.schema.get sourceType = .ok typeDecl)
    (made : includeTree includes = .ok tree) :
    ((∃ bound, ∀ nested, mapping.NestsTo parameters (rootSite sourceType modelType tree) nested →
      nested ≤ bound) ↔ ¬ mapping.Recurs parameters (rootSite sourceType modelType tree)) ∧
    (¬ mapping.Recurs parameters (rootSite sourceType modelType tree) →
      ∀ construct fuel, mapping.constructionDepth tree ≤ fuel →
        mapping.project sourceType modelType includes parameters = (do
          return ⟨⟨itemNameAtDepth 0, .named sourceType⟩,
            ← (rootSite sourceType modelType tree).constructedBy
              ((mapping.constructStep parameters)^[fuel] construct)⟩)) ∧
    (mapping.Recurs parameters (rootSite sourceType modelType tree) →
      (∀ fuel, Endless ((rootSite sourceType modelType tree).constructedBy
        (mapping.construct parameters fuel))) ∧
      Endless (mapping.project sourceType modelType includes parameters)) := by
  refine ⟨⟨fun ⟨bound, bounded⟩ recurs => ?_, fun ends => ?_⟩, fun ends construct fuel enough => ?_,
    fun recurs => ?_⟩
  · exact absurd (bounded _ (nestsTo_of_recurs recurs (bound + 1))) (Nat.not_succ_le_self bound)
  · exact ⟨_, fun nested nests => Nat.le_of_lt (nestsTo_lt_of_not_recurs ends nests)⟩
  · rw [project_eq registered made]
    have bounded := fun nested => @nestsTo_lt_of_not_recurs _ _ _ _ _ nested ends
    -- What is unrolled beyond the depth stands in the place of what comes after.
    obtain ⟨more, rfl⟩ := Nat.exists_eq_add_of_le enough
    rw [Function.iterate_add_apply, iterate_constructStep_of_nestsTo bounded]
  · have endless := fun fuel => endless_of_nestsTo (nestsTo_of_recurs recurs fuel) (Nat.le_refl fuel)
    rw [project_eq registered made]
    exact ⟨endless, (endless _).bind _⟩

def catalogSchema : Schema :=
  ⟨[⟨"Product", .entity, none, [⟨"Name", .scalar .string⟩, ⟨"Category", .named "Category"⟩]⟩,
    ⟨"Category", .complex, none,
      [⟨"Title", .scalar .string⟩, ⟨"Parent", .nullable (.named "Category")⟩,
        ⟨"Related", .collection .list (.named "Product")⟩]⟩]⟩

def catalog : Mapping := .ofSchema catalogSchema

def productCategory : Expr :=
  .member (.parameter ⟨itemNameAtDepth 0, .named "Product"⟩) "Category" (.named "Category")

theorem enters_productCategory (parameters : ProjectionParameters) :
    catalog.Enters parameters (rootSite "Product" "Product" .empty)
      ⟨.empty, "Category", productCategory, 0⟩ := by
  have listed : catalog.schema.members "Product" =
      .ok ([⟨"Name", .scalar .string⟩] ++ ⟨"Category", .named "Category"⟩ :: []) := by rfl
  refine .intro listed (List.forall_mem_singleton.2 ⟨0, _, by rfl⟩) ?_
  exact @Opens.intro catalog (rootSite "Product" "Product" .empty) ⟨"Category", .named "Category"⟩
    .empty productCategory "Category" (by rfl) (by rfl) ⟨.inl (by rfl), by rfl⟩

theorem enters_parentCategory (parameters : ProjectionParameters) :
    catalog.Enters parameters ⟨.empty, "Category", productCategory, 0⟩
      ⟨.empty, "Category", .member productCategory "Parent" (.nullable (.named "Category")), 0⟩ := by
  have listed : catalog.schema.members "Category" =
      .ok ([⟨"Title", .scalar .string⟩] ++ ⟨"Parent", .nullable (.named "Category")⟩ ::
        [⟨"Related", .collection .list (.named "Product")⟩]) := by rfl
  refine .intro listed (List.forall_mem_singleton.2 ⟨0, _, by rfl⟩) ?_
  exact @Opens.intro catalog ⟨.empty, "Category", productCategory, 0⟩
    ⟨"Parent", .nullable (.named "Category")⟩ .empty
    (.member productCategory "Parent" (.nullable (.named "Category"))) "Category" (by rfl) (by rfl)
    ⟨.inl (by rfl), by rfl⟩

theorem recurs_catalog (parameters : ProjectionParameters) :
    catalog.Recurs parameters (rootSite "Product" "Product" .empty) :=
  ⟨_, _, .single (enters_productCategory parameters), rfl, .single (enters_parentCategory parameters),
    rfl, rfl⟩

def categoryTitle : Lambda :=
  ⟨⟨"x", .named "Product"⟩,
    .member (.member (.parameter ⟨"x", .named "Product"⟩) "Category" (.named "Category")) "Title"
      (.scalar .string)⟩

theorem project_ends_iff_catalog :
    Endless (catalog.project "Product" "Product" [] []) ∧
      ∃ tree projection, includeTree [categoryTitle] = .ok tree ∧
        catalog.project "Product" "Product" [categoryTitle] [] = .ok projection ∧
        ∀ construct : IncludeTree → Construct, (do
          return ⟨⟨itemNameAtDepth 0, .named "Product"⟩,
            ← (rootSite "Product" "Product" tree).constructedBy
              ((catalog.constructStep [])^[catalog.constructionDepth tree] construct)⟩) =
            (.ok projection : Outcome Lambda) := by
  have registered : ∃ typeDecl, catalog.schema.get "Product" = .ok typeDecl := ⟨_, by rfl⟩
  obtain ⟨typeDecl, registered⟩ := registered
  obtain ⟨-, -, recurring⟩ := @project_ends_iff catalog [] "Product" .empty "Product" typeDecl []
    registered (by rfl)
  refine ⟨(recurring (recurs_catalog [])).2, ?_⟩
  obtain ⟨tree, made, -⟩ := exists_of_toOption_any (includeTree [categoryTitle]) (fun _ => true)
    (by rfl)
  obtain ⟨projection, projected, -⟩ := exists_of_toOption_any
    (catalog.project "Product" "Product" [categoryTitle] []) (fun _ => true) (by rfl)
  obtain ⟨-, ending, recurring⟩ := @project_ends_iff catalog [] "Product" tree "Product" typeDecl
    [categoryTitle] registered made
  have ends : ¬ catalog.Recurs [] (rootSite "Product" "Product" tree) := by
    intro recurs
    obtain ⟨typeName, endless⟩ := (recurring recurs).2
    rw [projected] at endless
    contradiction
  exact ⟨tree, projection, made, projected, fun construct =>
    (ending ends construct _ (Nat.le_refl _)).symm.trans projected⟩

theorem not_nestsTo_bounded :
    ¬ ∀ (mapping : Mapping) (parameters : ProjectionParameters) (sourceType modelType : String)
        (clause : Option Clause) (context : BindingContext) (maxExpandDepth : Nat) (forest : Forest)
        (includes : List Lambda) (tree : IncludeTree),
      (∀ typeName, (mapping.schema.chainOf typeName).2 ≠ .cycle) →
      mapping.sourceType modelType = .ok sourceType →
      Forest.build mapping.schema modelType clause context maxExpandDepth = .ok forest →
      Include.ofForest mapping.schema modelType forest = .ok includes →
      includeTree includes = .ok tree →
      ∃ bound, ∀ nested, mapping.NestsTo parameters (rootSite sourceType modelType tree) nested →
        nested ≤ bound := by
  intro always
  have acyclic : ∀ typeName, (catalog.schema.chainOf typeName).2 ≠ .cycle := by
    intro typeName
    have noBases : ∀ typeDecl ∈ catalog.schema.types, typeDecl.base = none := by
      simp [catalog, Mapping.ofSchema, catalogSchema]
    simp only [Schema.chainOf, Schema.baseChain]
    cases found : catalog.schema.find? typeName with
    | none => simp
    | some typeDecl => simp [noBases typeDecl (List.mem_of_find?_eq_some found)]
  -- A navigation below a complex member is selected without being expanded.
  obtain ⟨forest, built, included⟩ := exists_of_toOption_any
    (Forest.build catalogSchema "Product" (some ⟨false, [.path ["Category", "Related"] none]⟩)
      ⟨false, none⟩ 4)
    (fun forest => (Include.ofForest catalogSchema "Product" forest).toOption.any List.isEmpty)
    (by decide +kernel)
  obtain ⟨includes, isIncluded, isEmpty⟩ := exists_of_toOption_any _ _ included
  obtain rfl := List.isEmpty_iff.1 isEmpty
  obtain ⟨bound, bounded⟩ := always catalog [] "Product" "Product" _ _ _ forest [] .empty acyclic
    (by rfl) built isIncluded (by rfl)
  exact absurd (bounded _ (nestsTo_of_recurs (recurs_catalog []) (bound + 1)))
    (Nat.not_succ_le_self bound)

end Mapping

end QueryProjection
