import QueryProjection.Proofs.Mapping.Reading
import QueryProjection.Proofs.Value.Rows

set_option autoImplicit false

namespace QueryProjection

open Outcome Evaluation

structure SourceStep where
  typeName : String
  member : MemberDecl
  deriving DecidableEq

def SourceStep.typeRead : DataType → List SourceStep → DataType
  | ty, [] => ty
  | _, step :: rest => typeRead step.member.ty rest

def Schema.stepsAlong? (schema : Schema) : DataType → List String → Option (List SourceStep)
  | _, [] => some []
  | ty, name :: rest => do
      let typeName ← ty.typeName?
      let member ← schema.member? typeName name
      let later ← stepsAlong? schema member.ty rest
      return ⟨typeName, member⟩ :: later

theorem Schema.stepsAlong_cons {schema : Schema} {ty : DataType} {name : String} {rest : List String}
    {steps : List SourceStep} (along : schema.stepsAlong? ty (name :: rest) = some steps) :
    ∃ typeName member later, ty.typeName? = some typeName ∧
      schema.member? typeName name = some member ∧
      schema.stepsAlong? member.ty rest = some later ∧ steps = ⟨typeName, member⟩ :: later := by
  simp only [stepsAlong?, Option.bind_eq_bind, Option.bind_eq_some_iff, Option.pure_def,
    Option.some.injEq] at along
  obtain ⟨typeName, named, member, found, later, isLater, same⟩ := along
  exact ⟨typeName, member, later, named, found, isLater, same.symm⟩

/-- No step but the last one reads a collection. -/
def SourceStep.SingleValued (steps : List SourceStep) : Prop :=
  ∀ step ∈ steps.dropLast, step.member.ty.isCollection = false

theorem SourceStep.SingleValued.cons {step : SourceStep} {rest : List SourceStep}
    (single : SingleValued (step :: rest)) :
    (rest ≠ [] → step.member.ty.isCollection = false) ∧ SingleValued rest := by
  cases rest with
  | nil => exact ⟨fun further => absurd rfl further, by simp [SingleValued]⟩
  | cons next later =>
    obtain ⟨first, rest⟩ := List.forall_mem_cons.1 single
    exact ⟨fun _ => first, rest⟩

namespace Mapping

variable {mapping : Mapping} {rows : List Value} {scope : Scope} {rowType : String} {row value : Value}
  {source read : Expr} {names : List String}

def sourceSteps? (mapping : Mapping) (sourceType modelType member : String) :
    Option (List SourceStep) := do
  mapping.schema.stepsAlong? (.named sourceType) (← mapping.mapPath? modelType member)

inductive Meets (mapping : Mapping) (sourceType modelType : String) : String → String → Prop where
  | itself : Meets mapping sourceType modelType sourceType modelType
  | member {source model source' model' : String} {member : MemberDecl} {steps : List SourceStep}
      (meets : Meets mapping sourceType modelType source model)
      (listed : mapping.schema.Lists model member)
      (reads : mapping.sourceSteps? source model member.name = some steps)
      (holdsSource :
        mapping.schema.recordType? (SourceStep.typeRead (.named source) steps) = some source')
      (holdsModel : member.ty.typeName? = some model') :
      Meets mapping sourceType modelType source' model'

def EveryRead (mapping : Mapping) (sourceType modelType : String)
    (holds : String → MemberDecl → List SourceStep → Prop) : Prop :=
  ∀ source model member steps, mapping.Meets sourceType modelType source model →
    mapping.schema.Lists model member → mapping.sourceSteps? source model member.name = some steps →
      holds source member steps

/-- A collection is read for a collection and records are read for records, through members that are
no collections. -/
structure Fits (mapping : Mapping) (source : String) (member : MemberDecl) (steps : List SourceStep) :
    Prop where
  single : SourceStep.SingleValued steps
  collection : (SourceStep.typeRead (.named source) steps).isCollection = member.ty.isCollection
  records : (mapping.schema.recordType? (SourceStep.typeRead (.named source) steps)).isSome =
    (mapping.schema.recordType? member.ty).isSome

instance (steps : List SourceStep) : Decidable (SourceStep.SingleValued steps) :=
  inferInstanceAs (Decidable (∀ step ∈ steps.dropLast, step.member.ty.isCollection = false))

instance (mapping : Mapping) (source : String) (member : MemberDecl) (steps : List SourceStep) :
    Decidable (mapping.Fits source member steps) :=
  decidable_of_iff (SourceStep.SingleValued steps ∧
      (SourceStep.typeRead (.named source) steps).isCollection = member.ty.isCollection ∧
      (mapping.schema.recordType? (SourceStep.typeRead (.named source) steps)).isSome =
        (mapping.schema.recordType? member.ty).isSome)
    ⟨fun ⟨single, collection, records⟩ => ⟨single, collection, records⟩,
      fun fits => ⟨fits.single, fits.collection, fits.records⟩⟩

section Closed

variable (pairs : List (String × String)) (holds : String → MemberDecl → List SourceStep → Prop)

def StaysWithin (mapping : Mapping) (source : String) (member : MemberDecl) (steps : List SourceStep) :
    Prop :=
  holds source member steps ∧
    ∀ source' ∈ mapping.schema.recordType? (SourceStep.typeRead (.named source) steps),
      ∀ model' ∈ member.ty.typeName?, (source', model') ∈ pairs

def ClosedUnder (mapping : Mapping) : Prop :=
  ∀ pair ∈ pairs, ∀ all ∈ (mapping.schema.members pair.2).toOption, ∀ member ∈ all,
    ∀ steps ∈ mapping.sourceSteps? pair.1 pair.2 member.name,
      mapping.StaysWithin pairs holds pair.1 member steps

variable [∀ source member steps, Decidable (holds source member steps)]

instance (mapping : Mapping) (source : String) (member : MemberDecl) (steps : List SourceStep) :
    Decidable (mapping.StaysWithin pairs holds source member steps) :=
  inferInstanceAs (Decidable (_ ∧ _))

instance (mapping : Mapping) : Decidable (mapping.ClosedUnder pairs holds) :=
  inferInstanceAs (Decidable (∀ pair ∈ pairs, ∀ all ∈ (mapping.schema.members pair.2).toOption,
    ∀ member ∈ all, ∀ steps ∈ mapping.sourceSteps? pair.1 pair.2 member.name,
      mapping.StaysWithin pairs holds pair.1 member steps))

end Closed

theorem everyRead_of_closed {pairs : List (String × String)} {sourceType modelType : String}
    {holds : String → MemberDecl → List SourceStep → Prop} (closed : mapping.ClosedUnder pairs holds)
    (start : (sourceType, modelType) ∈ pairs) : mapping.EveryRead sourceType modelType holds := by
  have reads (source model : String) (isPair : (source, model) ∈ pairs) (member : MemberDecl)
      (lists : mapping.schema.Lists model member) (steps : List SourceStep)
      (isSteps : mapping.sourceSteps? source model member.name = some steps) :
      mapping.StaysWithin pairs holds source member steps := by
    obtain ⟨all, listed, isMember⟩ := lists
    exact closed _ isPair all (by simp [listed, Except.toOption]) member isMember steps isSteps
  have stays (source model : String) (meets : mapping.Meets sourceType modelType source model) :
      (source, model) ∈ pairs := by
    induction meets with
    | itself => exact start
    | member _ lists isSteps holdsSource holdsModel ih =>
      exact (reads _ _ ih _ lists _ isSteps).2 _ holdsSource _ holdsModel
  intro source model member steps meets lists isSteps
  exact (reads _ _ (stays _ _ meets) _ lists _ isSteps).1

/-- Every step reads a member that rows have, of the type that they have it of. -/
def Listed (mapping : Mapping) (steps : List SourceStep) : Prop :=
  ∀ step ∈ steps, mapping.schema.ListsAs step.typeName step.member

theorem listed_of_once (once : mapping.schema.DeclaresOnce) {ty : DataType} {steps : List SourceStep}
    (along : mapping.schema.stepsAlong? ty names = some steps) : mapping.Listed steps := by
  induction names generalizing ty steps with
  | nil =>
    cases along
    simp [Listed]
  | cons name rest ih =>
    obtain ⟨typeName, member, later, -, found, isLater, rfl⟩ := Schema.stepsAlong_cons along
    exact List.forall_mem_cons.2 ⟨Schema.listsAs_of_once once found, ih isLater⟩

theorem everyRead_listed (once : mapping.schema.DeclaresOnce) (sourceType modelType : String) :
    mapping.EveryRead sourceType modelType fun _ _ steps => mapping.Listed steps := by
  intro source model member steps _ _ isSteps
  obtain ⟨names, -, along⟩ := Option.bind_eq_some_iff.1 isSteps
  exact listed_of_once once along

theorem readSame_step {ty : DataType} {name : String} {rest : List String}
    {steps : List SourceStep} (reads : mapping.readSame source name = .ok read)
    (typed : source.type.nonNull = ty.nonNull)
    (along : mapping.schema.stepsAlong? ty (name :: rest) = some steps) :
    ∃ step later, steps = step :: later ∧ ty.typeName? = some step.typeName ∧
      read = .member source step.member.name step.member.ty ∧
      mapping.schema.stepsAlong? step.member.ty rest = some later := by
  obtain ⟨typeName, found, named, isFound, rfl⟩ := readSame_eq_ok reads
  obtain ⟨typeName', found', later, named', isFound', isLater, rfl⟩ := Schema.stepsAlong_cons along
  rw [typeName?_congr typed, named'] at named
  cases named
  cases isFound.symm.trans isFound'
  exact ⟨_, _, rfl, named', rfl, isLater⟩

theorem stepsAlong_of_readSteps {guards : List Expr} {current : Expr}
    (reads : mapping.readSteps guards current names = .ok read) :
    ∃ steps, mapping.schema.stepsAlong? current.type names = some steps ∧
      read.type.nonNull = (SourceStep.typeRead current.type steps).nonNull := by
  induction names generalizing guards current with
  | nil =>
    simp only [readSteps, Except.ok.injEq] at reads
    exact ⟨[], rfl, reads ▸ Expr.type_unlessNull guards current⟩
  | cons name rest ih =>
    obtain ⟨next, first, reads⟩ := bind_eq_ok.1 reads
    obtain ⟨typeName, found, named, isFound, rfl⟩ := readSame_eq_ok first
    obtain ⟨steps, along, typed⟩ := ih reads
    have along : mapping.schema.stepsAlong? found.ty rest = some steps := along
    refine ⟨⟨typeName, found⟩ :: steps, ?_, typed⟩
    simp [Schema.stepsAlong?, named, isFound, along]

theorem eval_step {guards : List Expr} {current : Expr} {ty : DataType} {step : SourceStep}
    (isRow : Value.IsRow mapping.schema rowType row) (single : ty.isCollection = false)
    (named : ty.typeName? = some step.typeName)
    (listed : mapping.schema.ListsAs step.typeName step.member)
    (evaluated : eval rows scope (Expr.unlessNull guards current) = .ok value)
    (mayBe : row.MayBe mapping.schema rowType ty value) :
    ∃ held, eval rows scope (Expr.unlessNull (guards ++ [current])
        (.member current step.member.name step.member.ty)) = .ok held ∧
      row.MayBe mapping.schema rowType step.member.ty held ∧
      (value ≠ .null → eval rows scope (.member current step.member.name step.member.ty) = .ok held) := by
  rw [Expr.eval_unlessNull] at evaluated
  simp only [Expr.eval_unlessNull, List.map_append, List.map_singleton, guarded_append, evaluated,
    ok_bind]
  -- Null becomes a guard that yields null; any other value is a record that has the member.
  by_cases present : value = .null
  · subst present
    exact ⟨.null, rfl, Value.mayBe_null _ _ _ _, fun present => absurd rfl present⟩
  · have isCurrent : eval rows scope current = .ok value :=
      (guarded_eq_ok evaluated).resolve_left present
    have isNamed : ty.nonNull = .named step.typeName := by
      rw [← DataType.elementType_of_single single]
      exact DataType.elementType_of_typeName? named
    obtain ⟨held, isRead, heldMayBe⟩ := mayBe.readMember isRow present isNamed listed
      (.member current step.member.name step.member.ty)
    have isHeld : eval rows scope (.member current step.member.name step.member.ty) = .ok held := by
      simp only [eval, isCurrent, ok_bind]
      exact isRead
    refine ⟨held, ?_, heldMayBe, fun _ => isHeld⟩
    simp only [Value.isNull_of_ne_null present, Bool.false_eq_true, if_false]
    exact isHeld

theorem eval_readSteps {guards : List Expr} {current : Expr} {steps : List SourceStep}
    (isRow : Value.IsRow mapping.schema rowType row)
    (reads : mapping.readSteps guards current names = .ok read)
    (along : mapping.schema.stepsAlong? current.type names = some steps)
    (first : steps ≠ [] → current.type.isCollection = false)
    (single : SourceStep.SingleValued steps) (listed : mapping.Listed steps)
    (evaluated : eval rows scope (Expr.unlessNull guards current) = .ok value)
    (mayBe : row.MayBe mapping.schema rowType current.type value) :
    ∃ value', eval rows scope read = .ok value' ∧
      row.MayBe mapping.schema rowType (SourceStep.typeRead current.type steps) value' := by
  induction names generalizing guards current value steps with
  | nil =>
    simp only [readSteps, Except.ok.injEq] at reads
    cases along
    exact ⟨value, reads ▸ evaluated, mayBe⟩
  | cons name rest ih =>
    obtain ⟨next, isNext, reads⟩ := bind_eq_ok.1 reads
    obtain ⟨step, later, rfl, named, rfl, along⟩ := readSame_step isNext rfl along
    obtain ⟨lists, listed⟩ := List.forall_mem_cons.1 listed
    obtain ⟨single, singles⟩ := single.cons
    obtain ⟨held, isHeld, heldMayBe, -⟩ :=
      eval_step isRow (first (by simp)) named lists evaluated mayBe
    show ∃ value', _ ∧ row.MayBe mapping.schema rowType (SourceStep.typeRead step.member.ty later) value'
    exact ih reads along single singles listed isHeld heldMayBe

variable {sourceType model member : String}

structure YieldsRecord (mapping : Mapping) (rows : List Value) (rowType : String) (row : Value)
    (scope : Scope) (source : Expr) (sourceType : String) : Prop where
  typed : source.type.nonNull = .named sourceType
  held : ∃ value, eval rows scope source = .ok value ∧ value ≠ .null ∧
    row.MayBe mapping.schema rowType (.named sourceType) value

theorem sourceSteps_of_readMapped (typed : source.type.nonNull = .named sourceType)
    (path : mapping.mapPath? model member = some names)
    (reads : mapping.readMapped model member source = .ok read) :
    ∃ steps, mapping.sourceSteps? sourceType model member = some steps ∧
      read.type.nonNull = (SourceStep.typeRead (.named sourceType) steps).nonNull := by
  simp only [sourceSteps?, path, Option.bind_eq_bind, Option.bind_some]
  rcases (readMapped_eq path source).1 reads with ⟨rfl, rfl⟩ | ⟨name, rest, next, rfl, first, reads⟩
  · exact ⟨[], rfl, typed⟩
  · obtain ⟨typeName, found, named, isFound, rfl⟩ := readSame_eq_ok first
    obtain ⟨steps, along, readType⟩ := stepsAlong_of_readSteps reads
    have along : mapping.schema.stepsAlong? found.ty rest = some steps := along
    have sameType : source.type.nonNull = (DataType.named sourceType).nonNull := typed
    rw [typeName?_congr sameType] at named
    refine ⟨⟨typeName, found⟩ :: steps, ?_, readType⟩
    simp [Schema.stepsAlong?, named, isFound, along]

theorem eval_readMapped {steps : List SourceStep} (isRow : Value.IsRow mapping.schema rowType row)
    (yields : mapping.YieldsRecord rows rowType row scope source sourceType)
    (path : mapping.mapPath? model member = some names)
    (reads : mapping.readMapped model member source = .ok read)
    (isSteps : mapping.sourceSteps? sourceType model member = some steps)
    (single : SourceStep.SingleValued steps) (listed : mapping.Listed steps) :
    ∃ value, eval rows scope read = .ok value ∧
      row.MayBe mapping.schema rowType (SourceStep.typeRead (.named sourceType) steps) value := by
  obtain ⟨value, evaluated, present, mayBe⟩ := yields.held
  simp only [sourceSteps?, path, Option.bind_eq_bind, Option.bind_some] at isSteps
  rcases (readMapped_eq path source).1 reads with ⟨rfl, rfl⟩ | ⟨name, rest, next, rfl, first, reads⟩
  · cases isSteps
    exact ⟨value, evaluated, mayBe⟩
  · have sameType : source.type.nonNull = (DataType.named sourceType).nonNull := yields.typed
    obtain ⟨step, later, rfl, named, rfl, along⟩ := readSame_step first sameType isSteps
    obtain ⟨lists, listed⟩ := List.forall_mem_cons.1 listed
    obtain ⟨single, singles⟩ := single.cons
    have unguarded : eval rows scope (Expr.unlessNull [] source) = .ok value := evaluated
    obtain ⟨held, -, heldMayBe, isHeld⟩ := eval_step isRow rfl named lists unguarded mayBe
    exact eval_readSteps isRow reads along single singles listed (isHeld present) heldMayBe

end Mapping

end QueryProjection
