import QueryProjection.Proofs.Expansion.Selections
import QueryProjection.Proofs.Mapping.Records

set_option autoImplicit false

namespace QueryProjection

open Outcome Evaluation

/-- What is asked of the collections below a record: by the member of the record, and by the members
behind it that lead on to the collection. -/
abbrev Refinements := String → List String → ExpandOptions

namespace Refinements

variable {asked : Refinements} {name other next : String} {rest : List String}
  {options : ExpandOptions}

def unrefined : Refinements := fun _ _ => .unrefined

def below (asked : Refinements) (name : String) : Refinements :=
  fun next rest => asked name (next :: rest)

def place (asked : Refinements) (names : List String) (options : ExpandOptions) : Refinements :=
  fun name rest => if name :: rest = names then options else asked name rest

theorem place_here : (asked.place [name] options) name [] = options := by
  simp [place]

theorem place_later : (asked.place (name :: next :: rest) options) name [] = asked name [] := by
  simp [place]

theorem place_other (different : other ≠ name) (later : List String) :
    (asked.place (name :: rest) options) other later = asked other later := by
  simp [place, different]

theorem below_place_last : (asked.place [name] options).below other = asked.below other := by
  funext first later
  simp [below, place]

theorem below_place_later : (asked.place (name :: next :: rest) options).below name =
    (asked.below name).place (next :: rest) options := by
  funext first later
  simp [below, place]

theorem below_place_other (different : other ≠ name) :
    (asked.place (name :: rest) options).below other = asked.below other := by
  funext first later
  exact place_other different _

end Refinements

structure Expr.Readable (expr : Expr) : Prop where
  noSelection : Refiner.hasSelection expr = false
  constructFree : expr.ConstructFree

theorem Expr.stable_readable : StableUnderReading Readable where
  constant _ _ := ⟨rfl, trivial⟩
  member _ _ _ readable := ⟨rfl, readable.constructFree⟩
  binary _ _ _ first second := ⟨rfl, first.constructFree, second.constructFree⟩
  conditional _ _ _ _ first second third :=
    ⟨rfl, first.constructFree, second.constructFree, third.constructFree⟩

theorem Expr.readable_parameter (param : Parameter) : (Expr.parameter param).Readable :=
  ⟨rfl, trivial⟩

namespace Refiner

inductive Fitted (refiner : Refiner) (shaped : String → Expr → Nat → Expr → Prop)
    (options : ExpandOptions) (memberType : DataType) (read : Expr) (depth : Nat) : Expr → Prop where
  | same (kind : refiner.mapping.schema.targetKind memberType = .ok .primitive)
      (fits : memberType.isCollection = true ∨ read.type.nonNull = memberType.nonNull) :
      Fitted refiner shaped options memberType read depth read
  | converted (kind : refiner.mapping.schema.targetKind memberType = .ok .primitive)
      (differs : ¬ (memberType.isCollection = true ∨ read.type.nonNull = memberType.nonNull)) :
      Fitted refiner shaped options memberType read depth (.convert read memberType)
  | items {element : String} {sequence body selection : Expr} (ty emptyType : DataType)
      (holds : refiner.mapping.HoldsRecords memberType element)
      (many : memberType.isCollection = true)
      (refined : Refined refiner element options read sequence)
      (isShaped : shaped element
        (.parameter ⟨Mapping.itemNameAtDepth (depth + 1), read.type.elementType⟩) (depth + 1) body)
      (selects : Selects sequence
        ⟨Mapping.itemNameAtDepth (depth + 1), read.type.elementType⟩ body selection)
      (typed : ty.listEquivalent memberType = true) :
      Fitted refiner shaped options memberType read depth
        (Mapping.emptyWhenNull read (.constant (Value.defaultOf memberType) emptyType) selection ty)
  | record {element : String} {record : Expr}
      (holds : refiner.mapping.HoldsRecords memberType element)
      (single : memberType.isCollection = false) (isShaped : shaped element read depth record) :
      Fitted refiner shaped options memberType read depth
        (Mapping.emptyWhenNull read (.null (.named element)) record (.named element))

inductive Bound (refiner : Refiner) (parameters : ProjectionParameters)
    (shaped : IncludeTree → Refinements → String → Expr → Nat → Expr → Prop) (tree : IncludeTree)
    (asked : Refinements) (modelType : String) (source : Expr) (depth : Nat) (member : MemberDecl) :
    String × Expr → Prop where
  | omitted (included : refiner.mapping.includeFor tree member = .ok none) :
      Bound refiner parameters shaped tree asked modelType source depth member
        (member.name, .constant (Value.defaultOf member.ty) member.ty)
  | parameter {child : IncludeTree} {name : String} {value : Value}
      (included : refiner.mapping.includeFor tree member = .ok (some child))
      (origin : refiner.mapping.origin? modelType member.name = some (.parameter name))
      (supplied : refiner.mapping.parameterValue parameters name member.ty = .ok value) :
      Bound refiner parameters shaped tree asked modelType source depth member
        (member.name, .constant value member.ty)
  | read {child : IncludeTree} {names : List String} {read value : Expr}
      (included : refiner.mapping.includeFor tree member = .ok (some child))
      (path : refiner.mapping.mapPath? modelType member.name = some names)
      (reads : refiner.mapping.readMapped modelType member.name source = .ok read)
      (fitted : Fitted refiner (shaped child (asked.below member.name)) (asked member.name [])
        member.ty read depth value) :
      Bound refiner parameters shaped tree asked modelType source depth member (member.name, value)

def Shaped (refiner : Refiner) (parameters : ProjectionParameters) :
    (fuel : Nat) → IncludeTree → Refinements → (modelType : String) → (source : Expr) →
      (depth : Nat) → Expr → Prop
  | 0, _, _, _, _, _, _ => False
  | fuel + 1, tree, asked, modelType, source, depth, expr =>
      ∃ members bindings, refiner.mapping.schema.members modelType = .ok members ∧
        expr = .construct (.named modelType) bindings ∧
        List.Forall₂ (Bound refiner parameters (Shaped refiner parameters fuel) tree asked modelType
          source depth) members bindings

variable {refiner : Refiner} {parameters : ProjectionParameters} {fuel depth : Nat}
  {tree : IncludeTree} {asked : Refinements} {modelType : String} {source read expr : Expr}
  {memberType : DataType} {member : MemberDecl}

section Construction

theorem listEquivalent_items {element : String} (named : memberType.typeName? = some element)
    (many : memberType.isCollection = true) (kind : CollectionKind) :
    (DataType.collection kind (.named element)).listEquivalent memberType = true := by
  unfold DataType.typeName? DataType.elementType at named
  unfold DataType.isCollection at many
  unfold DataType.listEquivalent
  cases shape : memberType.nonNull with
  | collection kind' element' =>
    simp only [shape] at named
    split at named
    next => simp_all [DataType.nonNull]
    next => simp at named
  | scalar _ | nullable _ | named _ | object => simp [shape] at many

theorem listEquivalent_record {element : String} (named : memberType.typeName? = some element)
    (single : memberType.isCollection = false) :
    (DataType.named element).listEquivalent memberType = true := by
  unfold DataType.typeName? DataType.elementType at named
  unfold DataType.isCollection at single
  unfold DataType.listEquivalent
  cases shape : memberType.nonNull with
  | collection _ _ => simp [shape] at single
  | scalar _ | nullable _ | named _ | object => simp_all [DataType.nonNull]

theorem fitted_of_fit {construct : Mapping.Construct}
    {shaped : String → Expr → Nat → Expr → Prop}
    (constructs : ∀ element source depth expr, source.Readable →
      construct element source depth = .ok expr →
        shaped element source depth expr ∧ expr.type = .named element)
    (readable : read.Readable)
    (fits : refiner.mapping.fit construct memberType read depth = .ok expr) :
    Fitted refiner shaped .unrefined memberType read depth expr := by
  cases Mapping.fitsBy_of_fit fits with
  | same kind taken => exact .same kind taken
  | converted kind differs => exact .converted kind differs
  | items holds many constructed selects =>
    subst selects
    obtain ⟨isShaped, typed⟩ := constructs _ _ _ _ (Expr.readable_parameter _) constructed
    obtain ⟨kind, isType⟩ := Selects.elementType_coercedTo read
      ⟨Mapping.itemNameAtDepth (depth + 1), read.type.elementType⟩ typed memberType.collectionKind?
    rw [isType]
    exact .items _ _ holds many (refined_itself readable.noSelection readable.constructFree)
      isShaped (Selects.coercedTo _ _ _ _) (listEquivalent_items holds.named many kind)
  | record holds single constructed =>
    exact .record holds single (constructs _ _ _ _ readable constructed).1

theorem construct_shaped (readable : source.Readable)
    (constructed : refiner.mapping.construct parameters fuel tree modelType source depth = .ok expr) :
    Shaped refiner parameters fuel tree .unrefined modelType source depth expr := by
  induction fuel generalizing tree modelType source depth expr with
  | zero => simp [Mapping.construct] at constructed
  | succ fuel ih =>
    obtain ⟨fuel', bindings, members, same, rfl, listed, binds⟩ := Mapping.construct_eq_ok constructed
    cases same
    refine ⟨members, bindings, listed, rfl, binds.imp ?_⟩
    intro member binding bound
    obtain ⟨name, value⟩ := binding
    obtain ⟨named, bound⟩ := bound
    simp only at named bound
    subst named
    rcases bound with ⟨omitted, rfl⟩ | ⟨child, included, bound⟩
    · exact .omitted omitted
    · cases path : refiner.mapping.mapPath? modelType member.name with
      | none =>
        -- Only a member from a parameter has no path to read along.
        unfold Mapping.mapPath? at path
        unfold Mapping.bindingValue at bound
        split at path
        next => simp at path
        next name origin =>
          simp only [origin, bind_eq_ok, pure_eq_ok] at bound
          obtain ⟨supplied, isSupplied, rfl⟩ := bound
          exact .parameter included origin isSupplied
        next => simp at path
      | some names =>
        rw [Mapping.bindingValue_of_mapPath path] at bound
        obtain ⟨read, reads, fits⟩ := bind_eq_ok.1 bound
        refine .read included path reads (fitted_of_fit ?_ ?_ fits)
        · intro element source depth expr readable constructed
          refine ⟨ih readable constructed, ?_⟩
          obtain ⟨_, _, _, _, rfl, -⟩ := Mapping.construct_eq_ok constructed
          rfl
        · exact Expr.stable_readable.readMapped readable reads

end Construction

end Refiner

end QueryProjection
