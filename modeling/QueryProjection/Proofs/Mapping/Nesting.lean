import Mathlib.Logic.Function.Iterate
import QueryProjection.Proofs.Mapping.Records
import QueryProjection.Proofs.Schema.Types

set_option autoImplicit false

namespace QueryProjection

open Outcome

namespace Outcome

variable {α β : Type}

def Endless (outcome : Outcome α) : Prop :=
  ∃ typeName, outcome = .error (.endlessProjection typeName)

def Approaches (outcome outcome' : Outcome α) : Prop :=
  outcome = outcome' ∨ Endless outcome

theorem Endless.bind {outcome : Outcome α} (endless : Endless outcome) (next : α → Outcome β) :
    Endless (outcome >>= next) := by
  obtain ⟨typeName, rfl⟩ := endless
  exact ⟨typeName, rfl⟩

theorem Approaches.bind {outcome outcome' : Outcome α} {next next' : α → Outcome β}
    (first : Approaches outcome outcome') (then_ : ∀ value, Approaches (next value) (next' value)) :
    Approaches (outcome >>= next) (outcome' >>= next') := by
  rcases first with rfl | endless
  · cases outcome with
    | ok value => exact then_ value
    | error cause => exact .inl rfl
  · exact .inr (endless.bind next)

theorem Approaches.mapM {step step' : α → Outcome β}
    (each : ∀ item, Approaches (step item) (step' item)) (items : List α) :
    Approaches (items.mapM step) (items.mapM step') := by
  induction items with
  | nil => exact .inl rfl
  | cons item rest ih =>
    rw [List.mapM_cons, List.mapM_cons]
    exact (each item).bind fun first => ih.bind fun later => .inl rfl

theorem Endless.mapM {step : α → Outcome β} {before after : List α} {item : α}
    (reached : ∀ earlier ∈ before, (∃ result, step earlier = .ok result) ∨ Endless (step earlier))
    (endless : Endless (step item)) : Endless ((before ++ item :: after).mapM step) := by
  induction before with
  | nil =>
    rw [List.nil_append, List.mapM_cons]
    exact endless.bind _
  | cons earlier rest ih =>
    obtain ⟨first, later⟩ := List.forall_mem_cons.1 reached
    rw [List.cons_append, List.mapM_cons]
    rcases first with ⟨result, isResult⟩ | endlessFirst
    · rw [isResult, ok_bind]
      exact (ih later).bind _
    · exact endlessFirst.bind _

end Outcome

namespace Mapping

/-- A record to construct: the members to populate, the model type, what the record is read from and
at which depth of lambdas. -/
structure RecordSite where
  tree : IncludeTree
  modelType : String
  source : Expr
  depth : Nat

namespace RecordSite

def constructedBy (site : RecordSite) (construct : IncludeTree → Construct) : Outcome Expr :=
  construct site.tree site.modelType site.source site.depth

def below (site : RecordSite) (member : MemberDecl) (child : IncludeTree) (element : String)
    (read : Expr) : RecordSite :=
  if member.ty.isCollection then
    ⟨child, element, .parameter ⟨itemNameAtDepth (site.depth + 1), read.type.elementType⟩,
      site.depth + 1⟩
  else ⟨child, element, read, site.depth⟩

end RecordSite

variable {mapping : Mapping} {parameters : ProjectionParameters} {fuel fuel' : Nat}
  {construct construct' : IncludeTree → Construct} {site later : RecordSite} {member : MemberDecl}

def bindMember (mapping : Mapping) (parameters : ProjectionParameters)
    (construct : IncludeTree → Construct) (site : RecordSite) (member : MemberDecl) :
    Outcome (String × Expr) := do
  match ← mapping.includeFor site.tree member with
  | none => return (member.name, Expr.constant (Value.defaultOf member.ty) member.ty)
  | some child =>
      return (member.name, ← mapping.bindingValue parameters (construct child) site.modelType member
        site.source site.depth)

def constructStep (mapping : Mapping) (parameters : ProjectionParameters)
    (construct : IncludeTree → Construct) : IncludeTree → Construct :=
  fun tree modelType source depth => do
    let members ← mapping.schema.members modelType
    let bindings ← members.mapM
      (mapping.bindMember parameters construct ⟨tree, modelType, source, depth⟩)
    return .construct (.named modelType) bindings

theorem construct_succ :
    mapping.construct parameters (fuel + 1) =
      mapping.constructStep parameters (mapping.construct parameters fuel) := rfl

inductive Opens (mapping : Mapping) (site : RecordSite) (member : MemberDecl) : RecordSite → Prop where
  | intro {child : IncludeTree} {read : Expr} {element : String}
      (included : mapping.includeFor site.tree member = .ok (some child))
      (reads : mapping.readMapped site.modelType member.name site.source = .ok read)
      (holds : mapping.HoldsRecords member.ty element) :
      Opens mapping site member (site.below member child element read)

theorem mapPath?_of_readMapped {modelType name : String} {source read : Expr}
    (reads : mapping.readMapped modelType name source = .ok read) :
    ∃ names, mapping.mapPath? modelType name = some names := by
  unfold readMapped at reads
  unfold mapPath?
  split at reads <;> simp_all

theorem bindingValue_congr_of_parameter {construct construct' : Construct} {modelType : String}
    {source source' : Expr} {depth depth' : Nat}
    (path : mapping.mapPath? modelType member.name = none) :
    mapping.bindingValue parameters construct modelType member source depth =
      mapping.bindingValue parameters construct' modelType member source' depth' := by
  unfold mapPath? at path
  unfold bindingValue
  split at path <;> simp_all

theorem fit_of_holds {construct : Construct} {memberType : DataType} {element : String}
    (holds : mapping.HoldsRecords memberType element) (read : Expr) (depth : Nat) :
    mapping.fit construct memberType read depth =
      if memberType.isCollection then fitItems construct memberType element read depth
      else fitRecord construct element read depth := by
  unfold fit
  rcases holds.kind with isKind | isKind <;> simp only [isKind, ok_bind, holds.named]

theorem fit_congr_of_not_holds {construct construct' : Construct} {memberType : DataType}
    (notRecords : ∀ element, ¬ mapping.HoldsRecords memberType element) (read : Expr)
    (depth depth' : Nat) :
    mapping.fit construct memberType read depth = mapping.fit construct' memberType read depth' := by
  unfold fit
  refine bind_congr_of_ok fun kind isKind => ?_
  cases kind with
  | primitive | collection => rfl
  | complex =>
    cases named : memberType.typeName? with
    | none => rfl
    | some element => exact absurd ⟨.inl isKind, named⟩ (notRecords element)
  | entity =>
    cases named : memberType.typeName? with
    | none => rfl
    | some element => exact absurd ⟨.inr isKind, named⟩ (notRecords element)

theorem Opens.bindMember (opens : mapping.Opens site member later) :
    ∃ wrap : Expr → Expr, ∀ construct, mapping.bindMember parameters construct site member = (do
      return (member.name, wrap (← later.constructedBy construct))) := by
  obtain @⟨child, read, element, included, reads, holds⟩ := opens
  obtain ⟨names, path⟩ := mapPath?_of_readMapped reads
  by_cases many : member.ty.isCollection = true
  · refine ⟨fun body =>
      let projected := (read.selected
        ⟨⟨itemNameAtDepth (site.depth + 1), read.type.elementType⟩, body⟩).coercedTo
          member.ty.collectionKind?
      emptyWhenNull read (.constant (Value.defaultOf member.ty) projected.type) projected
        projected.type, fun construct => ?_⟩
    simp only [Mapping.bindMember, included, ok_bind, bindingValue_of_mapPath path, reads,
      fit_of_holds holds, many, if_true, fitItems, RecordSite.below, RecordSite.constructedBy,
      bind_assoc, pure_bind]
  · refine ⟨fun record => emptyWhenNull read (.null (.named element)) record (.named element),
      fun construct => ?_⟩
    simp only [Mapping.bindMember, included, ok_bind, bindingValue_of_mapPath path, reads,
      fit_of_holds holds, many, if_false, fitRecord, RecordSite.below, RecordSite.constructedBy,
      bind_assoc, pure_bind, Bool.false_eq_true]

theorem bindMember_congr
    (same : ∀ later, mapping.Opens site member later →
      later.constructedBy construct = later.constructedBy construct') :
    mapping.bindMember parameters construct site member =
      mapping.bindMember parameters construct' site member := by
  by_cases opening : ∃ later, mapping.Opens site member later
  · obtain ⟨later, opens⟩ := opening
    obtain ⟨wrap, bound⟩ := opens.bindMember
    rw [bound, bound, same later opens]
  · refine bind_congr_of_ok fun child? included => ?_
    match child? with
    | none => rfl
    | some child =>
      dsimp only
      cases path : mapping.mapPath? site.modelType member.name with
      | none => rw [bindingValue_congr_of_parameter path]
      | some names =>
        rw [bindingValue_of_mapPath path, bindingValue_of_mapPath path]
        refine congrArg (· >>= _) (bind_congr_of_ok fun read reads => ?_)
        exact fit_congr_of_not_holds (fun element holds => opening ⟨_, included, reads, holds⟩) ..

theorem bindMember_approaches
    (each : ∀ later : RecordSite,
      Approaches (later.constructedBy construct) (later.constructedBy construct')) :
    Approaches (mapping.bindMember parameters construct site member)
      (mapping.bindMember parameters construct' site member) := by
  by_cases opening : ∃ later, mapping.Opens site member later
  · obtain ⟨later, opens⟩ := opening
    obtain ⟨wrap, bound⟩ := opens.bindMember
    rw [bound, bound]
    exact (each later).bind fun record => .inl rfl
  · exact .inl (bindMember_congr fun later opens => absurd ⟨later, opens⟩ opening)

theorem construct_approaches (enough : fuel ≤ fuel') (site : RecordSite) :
    Approaches (site.constructedBy (mapping.construct parameters fuel))
      (site.constructedBy (mapping.construct parameters fuel')) := by
  induction fuel generalizing fuel' site with
  | zero => exact .inr ⟨site.modelType, rfl⟩
  | succ fuel ih =>
    cases fuel' with
    | zero => omega
    | succ fuel' =>
      rw [construct_succ, construct_succ]
      refine Approaches.bind (.inl rfl) fun members => ?_
      refine Approaches.bind (Approaches.mapM (fun member => ?_) members) fun _ => .inl rfl
      exact bindMember_approaches fun later => ih (by omega) later

theorem bindMember_ok_or_endless {binding : String × Expr}
    (bound : mapping.bindMember parameters (mapping.construct parameters fuel) site member =
      .ok binding) (fuel' : Nat) :
    (∃ binding', mapping.bindMember parameters (mapping.construct parameters fuel') site member =
        .ok binding') ∨
      Endless (mapping.bindMember parameters (mapping.construct parameters fuel') site member) := by
  rcases Nat.le_total fuel' fuel with fewer | more
  · rcases bindMember_approaches (construct_approaches fewer) with same | endless
    · exact .inl ⟨binding, same.trans bound⟩
    · exact .inr endless
  · rcases bindMember_approaches (construct_approaches more) with same | ⟨typeName, endless⟩
    · exact .inl ⟨binding, same.symm.trans bound⟩
    · rw [bound] at endless
      contradiction

/-- The construction of a record comes to one of another record, when all members before are bound. -/
inductive Enters (mapping : Mapping) (parameters : ProjectionParameters) (site : RecordSite) :
    RecordSite → Prop where
  | intro {before after : List MemberDecl} {member : MemberDecl} {later : RecordSite}
      (listed : mapping.schema.members site.modelType = .ok (before ++ member :: after))
      (bound : ∀ earlier ∈ before, ∃ fuel binding,
        mapping.bindMember parameters (mapping.construct parameters fuel) site earlier = .ok binding)
      (opens : mapping.Opens site member later) : Enters mapping parameters site later

/-- Constructions of records, each entered from the one before, this many below the site. -/
inductive NestsTo (mapping : Mapping) (parameters : ProjectionParameters) : RecordSite → Nat → Prop
    where
  | here (site : RecordSite) : NestsTo mapping parameters site 0
  | deeper {site later : RecordSite} {nested : Nat} (enters : mapping.Enters parameters site later)
      (nests : NestsTo mapping parameters later nested) :
      NestsTo mapping parameters site (nested + 1)

theorem endless_of_nestsTo {nested : Nat} (nests : mapping.NestsTo parameters site nested)
    (few : fuel ≤ nested) : Endless (site.constructedBy (mapping.construct parameters fuel)) := by
  induction nests generalizing fuel with
  | here site =>
    obtain rfl : fuel = 0 := by omega
    exact ⟨site.modelType, rfl⟩
  | @deeper site later nested enters nests ih =>
    cases fuel with
    | zero => exact ⟨site.modelType, rfl⟩
    | succ fuel =>
      obtain ⟨listed, bound, opens⟩ := enters
      -- The members before are bound with some fuel, so they are with this, or it is too little.
      have endless := @ih fuel (by omega)
      rw [construct_succ]
      simp only [RecordSite.constructedBy, constructStep, listed, ok_bind]
      refine Endless.bind (Endless.mapM (fun earlier isEarlier => ?_) ?_) _
      · obtain ⟨enough, binding, isBound⟩ := bound earlier isEarlier
        exact bindMember_ok_or_endless isBound fuel
      · obtain ⟨wrap, opened⟩ := opens.bindMember
        rw [opened]
        exact endless.bind _

theorem iterate_constructStep_of_nestsTo
    (bounded : ∀ nested, mapping.NestsTo parameters site nested → nested < fuel)
    (construct : IncludeTree → Construct) :
    site.constructedBy ((mapping.constructStep parameters)^[fuel] construct) =
      site.constructedBy (mapping.construct parameters fuel) := by
  induction fuel generalizing site with
  | zero => exact absurd (bounded 0 (.here site)) (Nat.not_lt_zero 0)
  | succ fuel ih =>
    rw [Function.iterate_succ_apply', construct_succ]
    simp only [RecordSite.constructedBy, constructStep]
    refine bind_congr_of_ok fun members listed => ?_
    -- The construction with fuel decides which members are reached: those are the ones it enters.
    refine congrArg (· >>= _) (Eq.symm (mapM_congr_of_reached fun before member after split bound => ?_))
    subst split
    refine bindMember_congr fun later opens => ?_
    have enters : mapping.Enters parameters site later :=
      .intro listed (fun earlier isEarlier => ⟨fuel, bound earlier isEarlier⟩) opens
    refine (ih fun nested nests => ?_).symm
    have deeper := bounded _ (.deeper enters nests)
    omega

structure RecordSite.Alike (site site' : RecordSite) : Prop where
  tree : site.tree = site'.tree
  modelType : site.modelType = site'.modelType
  source : SameType site.source site'.source

variable {site' : RecordSite}

theorem RecordSite.Alike.reads {read : Expr} (alike : site.Alike site')
    (reads : mapping.readMapped site.modelType member.name site.source = .ok read) :
    ∃ read', mapping.readMapped site'.modelType member.name site'.source = .ok read' ∧
      SameType read read' := by
  have related := @readMapped_sameType mapping _ _ alike.source site.modelType member.name
  rw [reads, alike.modelType] at related
  generalize mapping.readMapped site'.modelType member.name site'.source = outcome at related ⊢
  cases related with
  | ok same => exact ⟨_, rfl, same⟩

theorem Opens.alike (opens : mapping.Opens site member later) (alike : site.Alike site') :
    ∃ later', mapping.Opens site' member later' ∧ later.Alike later' := by
  obtain @⟨child, read, element, included, reads, holds⟩ := opens
  obtain ⟨read', reads', same⟩ := alike.reads reads
  refine ⟨_, .intro (alike.tree ▸ included) reads' holds, ?_⟩
  unfold RecordSite.below
  split
  · exact ⟨rfl, rfl, congrArg DataType.nonNull (DataType.elementType_congr same)⟩
  · exact ⟨rfl, rfl, same⟩

theorem fit_of_primitive {construct : Construct} {memberType : DataType}
    (primitive : mapping.schema.targetKind memberType = .ok .primitive) (read : Expr) (depth : Nat) :
    ∃ fitted, mapping.fit construct memberType read depth = .ok fitted := by
  simp only [fit, primitive, ok_bind]
  split <;> exact ⟨_, rfl⟩

theorem bindingValue_alike {construct : Construct} {child : IncludeTree} {value : Expr}
    (alike : site.Alike site') (included : mapping.includeFor site.tree member = .ok (some child))
    (opensNone : ¬ ∃ later, mapping.Opens site member later)
    (bound : mapping.bindingValue parameters construct site.modelType member site.source site.depth =
      .ok value) :
    ∃ value', mapping.bindingValue parameters construct site'.modelType member site'.source
      site'.depth = .ok value' := by
  rw [← alike.modelType]
  cases path : mapping.mapPath? site.modelType member.name with
  | none => exact ⟨value, (bindingValue_congr_of_parameter path).trans bound⟩
  | some names =>
    rw [bindingValue_of_mapPath path] at bound ⊢
    obtain ⟨read, reads, fits⟩ := bind_eq_ok.1 bound
    obtain ⟨read', reads', -⟩ := alike.reads reads
    rw [alike.modelType, reads', ok_bind]
    cases fitsBy_of_fit fits with
    | same primitive _ | converted primitive _ => exact fit_of_primitive primitive read' _
    | items holds _ _ _ | record holds _ _ => exact absurd ⟨_, .intro included reads holds⟩ opensNone

theorem bindMember_alike {binding : String × Expr} (alike : site.Alike site')
    (each : ∀ later later' : RecordSite, later.Alike later' →
      ∀ record, later.constructedBy construct = .ok record →
        ∃ record', later'.constructedBy construct = .ok record')
    (bound : mapping.bindMember parameters construct site member = .ok binding) :
    ∃ binding', mapping.bindMember parameters construct site' member = .ok binding' := by
  by_cases opening : ∃ later, mapping.Opens site member later
  · obtain ⟨later, opens⟩ := opening
    obtain ⟨later', opens', alikeLater⟩ := opens.alike alike
    obtain ⟨wrap, opened⟩ := opens.bindMember
    obtain ⟨wrap', opened'⟩ := opens'.bindMember
    rw [opened, bind_eq_ok] at bound
    obtain ⟨record, constructed, -⟩ := bound
    obtain ⟨record', constructed'⟩ := each later later' alikeLater record constructed
    exact ⟨_, by rw [opened', constructed']; rfl⟩
  · obtain ⟨child?, included, bound⟩ := bind_eq_ok.1 bound
    simp only [bindMember, ← alike.tree, included, ok_bind]
    match child? with
    | none => exact ⟨_, rfl⟩
    | some child =>
      obtain ⟨value, isValue, -⟩ := bind_eq_ok.1 bound
      obtain ⟨value', isValue'⟩ := bindingValue_alike alike included opening isValue
      exact ⟨_, by dsimp only; rw [isValue']; rfl⟩

theorem construct_alike {record : Expr} (alike : site.Alike site')
    (constructed : site.constructedBy (mapping.construct parameters fuel) = .ok record) :
    ∃ record', site'.constructedBy (mapping.construct parameters fuel) = .ok record' := by
  induction fuel generalizing site site' record with
  | zero => contradiction
  | succ fuel ih =>
    rw [construct_succ] at constructed ⊢
    simp only [RecordSite.constructedBy, constructStep] at constructed ⊢
    obtain ⟨members, listed, made⟩ := bind_eq_ok.1 constructed
    obtain ⟨bindings, bound, -⟩ := bind_eq_ok.1 made
    have each := mapM_exists_iff.1 ⟨bindings, bound⟩
    have again : ∀ member ∈ members, ∃ binding, mapping.bindMember parameters
        (mapping.construct parameters fuel) site' member = .ok binding := fun member isMember => by
      obtain ⟨binding, isBound⟩ := each member isMember
      exact bindMember_alike alike (fun later later' alikeLater record => ih alikeLater) isBound
    obtain ⟨bindings', bound'⟩ := mapM_exists_iff.2 again
    rw [← alike.modelType, listed, ok_bind]
    exact ⟨_, by rw [alike.modelType, bound']; rfl⟩

theorem Enters.alike (enters : mapping.Enters parameters site later) (alike : site.Alike site') :
    ∃ later', mapping.Enters parameters site' later' ∧ later.Alike later' := by
  obtain ⟨listed, bound, opens⟩ := enters
  obtain ⟨later', opens', alikeLater⟩ := opens.alike alike
  refine ⟨later', .intro (alike.modelType ▸ listed) (fun earlier isEarlier => ?_) opens', alikeLater⟩
  obtain ⟨fuel, binding, isBound⟩ := bound earlier isEarlier
  exact ⟨fuel, bindMember_alike alike (fun _ _ alikeBelow _ => construct_alike alikeBelow) isBound⟩

end Mapping

end QueryProjection
