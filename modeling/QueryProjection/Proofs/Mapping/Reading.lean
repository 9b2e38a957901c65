import QueryProjection.Mapping.Source
import QueryProjection.Forest.Path
import QueryProjection.Proofs.Evaluation.Guards

set_option autoImplicit false

namespace QueryProjection

open Outcome Evaluation

namespace Schema

def memberAt? (schema : Schema) (ty : DataType) : List String → Option MemberDecl
  | [] => none
  | [name] => do schema.member? (← ty.typeName?) name
  | name :: next :: rest => do
      let member ← schema.member? (← ty.typeName?) name
      memberAt? schema member.ty (next :: rest)

end Schema

namespace Mapping

/-- The chain of source members that a member is read from; none for a projection parameter. -/
def mapPath? (mapping : Mapping) (modelType member : String) : Option (List String) :=
  match mapping.origin? modelType member with
  | some (.path names) => some names
  | some (.parameter _) => none
  | none => some [member]

/-- The type of the source value that a step reads. An empty chain reads the value itself. -/
def typeRead? (mapping : Mapping) (ty : DataType) (step : PathStep) : Option DataType := do
  let names ← mapping.mapPath? step.declaringType step.memberName
  if names.isEmpty then return ty else return (← mapping.schema.memberAt? ty names).ty

def sourceMember? (mapping : Mapping) : DataType → MemberPath → Option MemberDecl
  | _, [] => none
  | ty, [step] => do
      mapping.schema.memberAt? ty (← mapping.mapPath? step.declaringType step.memberName)
  | ty, step :: next :: rest => do
      sourceMember? mapping (← mapping.typeRead? ty step) (next :: rest)

def readAlong (mapping : Mapping) : Expr → MemberPath → Outcome (List Expr)
  | _, [] => .ok []
  | source, step :: rest => do
      let read ← mapping.readMapped step.declaringType step.memberName source
      let reads ← readAlong mapping read rest
      return read :: reads

variable {mapping : Mapping} {source read : Expr} {names : List String}

theorem readMapped_eq {modelType member : String}
    (path : mapping.mapPath? modelType member = some names) (source : Expr) :
    mapping.readMapped modelType member source = .ok read ↔
      (names = [] ∧ read = source) ∨
        ∃ name rest next, names = name :: rest ∧ mapping.readSame source name = .ok next ∧
          mapping.readSteps [] next rest = .ok read := by
  unfold mapPath? at path
  unfold readMapped
  cases origin : mapping.origin? modelType member with
  | none =>
    simp only [origin, Option.some.injEq] at path
    subst path
    constructor
    · intro reads
      exact .inr ⟨member, [], read, rfl, reads, rfl⟩
    · intro reads
      rcases reads with ⟨empty, -⟩ | ⟨name, rest, next, same, first, reads⟩
      · simp at empty
      · cases same
        simp only [readSteps, Expr.unlessNull, Except.ok.injEq] at reads
        exact reads ▸ first
  | some origin_ =>
    cases origin_ with
    | parameter name => simp [origin] at path
    | path chain =>
      simp only [origin, Option.some.injEq] at path
      subst path
      cases chain with
      | nil => simp [readPath, eq_comm]
      | cons name rest => simp [readPath, bind_eq_ok]

theorem readAlong_cons {step : PathStep} {rest : MemberPath} {reads : List Expr}
    (first : mapping.readMapped step.declaringType step.memberName source = .ok read)
    (later : mapping.readAlong read rest = .ok reads) :
    mapping.readAlong source (step :: rest) = .ok (read :: reads) := by
  simp only [readAlong, first, later, ok_bind]
  rfl

theorem readSame_eq_ok {member : String} (reads : mapping.readSame source member = .ok read) :
    ∃ typeName found, source.type.typeName? = some typeName ∧
      mapping.schema.member? typeName member = some found ∧
      read = .member source found.name found.ty := by
  unfold readSame at reads
  split at reads
  next typeName named =>
    simp only [bind_eq_ok, pure_eq_ok] at reads
    obtain ⟨found, resolved, rfl⟩ := reads
    unfold Schema.resolve at resolved
    split at resolved
    next member_ isFound =>
      cases resolved
      exact ⟨typeName, found, named, isFound, rfl⟩
    next => simp at resolved
  next => simp [cannotRead] at reads

section Types

theorem typeName?_congr {ty ty' : DataType} (same : ty.nonNull = ty'.nonNull) :
    ty.typeName? = ty'.typeName? := by
  simp only [DataType.typeName?, DataType.elementType, same]

theorem readSteps_type {guards : List Expr} {current : Expr} {typeName name : String}
    {found : MemberDecl} {ty : DataType} (named : ty.typeName? = some typeName)
    (isFound : mapping.schema.member? typeName name = some found)
    (typed : current.type = found.ty)
    (reads : mapping.readSteps guards current names = .ok read) :
    ∃ member, mapping.schema.memberAt? ty (name :: names) = some member ∧
      read.type.nonNull = member.ty.nonNull := by
  induction names generalizing guards current typeName name found ty with
  | nil =>
    simp only [readSteps, Except.ok.injEq] at reads
    subst reads
    refine ⟨found, by simp [Schema.memberAt?, named, isFound], ?_⟩
    rw [Expr.type_unlessNull, typed]
  | cons next rest ih =>
    simp only [readSteps, bind_eq_ok] at reads
    obtain ⟨later, first, reads⟩ := reads
    obtain ⟨typeName', found', named', isFound', rfl⟩ := readSame_eq_ok first
    rw [typed] at named'
    obtain ⟨member, ends, same⟩ := ih named' isFound' rfl reads
    exact ⟨member, by simp [Schema.memberAt?, named, isFound, ends], same⟩

theorem readMapped_type {ty : DataType} {step : PathStep} (typed : source.type.nonNull = ty.nonNull)
    (path : mapping.mapPath? step.declaringType step.memberName = some names)
    (reads : mapping.readMapped step.declaringType step.memberName source = .ok read) :
    (names = [] ∧ read = source) ∨
      ∃ member, mapping.schema.memberAt? ty names = some member ∧
        read.type.nonNull = member.ty.nonNull := by
  rcases (readMapped_eq path source).1 reads with whole | ⟨name, rest, next, rfl, first, reads⟩
  · exact .inl whole
  · obtain ⟨typeName, found, named, isFound, rfl⟩ := readSame_eq_ok first
    rw [typeName?_congr typed] at named
    exact .inr (readSteps_type named isFound rfl reads)

theorem typeRead?_of_readMapped {ty ty' : DataType} {step : PathStep}
    (typed : source.type.nonNull = ty.nonNull) (isType : mapping.typeRead? ty step = some ty')
    (reads : mapping.readMapped step.declaringType step.memberName source = .ok read) :
    read.type.nonNull = ty'.nonNull := by
  unfold typeRead? at isType
  cases path : mapping.mapPath? step.declaringType step.memberName with
  | none => simp [path] at isType
  | some names =>
    rcases readMapped_type typed path reads with ⟨rfl, rfl⟩ | ⟨member, ends, same⟩
    · simp only [path, Option.bind_eq_bind, Option.bind_some, List.isEmpty_nil, if_true,
        Option.pure_def, Option.some.injEq] at isType
      rw [typed, isType]
    · have some_ : names ≠ [] := by
        rintro rfl
        simp [Schema.memberAt?] at ends
      simp only [path, Option.bind_eq_bind, Option.bind_some, List.isEmpty_iff, some_, if_false, ends,
        Option.pure_def, Option.some.injEq] at isType
      rw [same, isType]

end Types

section SameType

def SameType (left right : Expr) : Prop :=
  left.type.nonNull = right.type.nonNull

variable {left right : Expr}

theorem readSame_sameType (same : SameType left right) (member : String) :
    Related SameType (mapping.readSame left member) (mapping.readSame right member) := by
  unfold readSame
  rw [typeName?_congr same]
  cases right.type.typeName? with
  | none => exact .failed _ _
  | some typeName =>
    dsimp only
    cases mapping.schema.resolve typeName member with
    | error cause => exact .failed _ _
    | ok found => exact .ok rfl

theorem readSteps_sameType {guards guards' : List Expr} (same : SameType left right)
    (names : List String) :
    Related SameType (mapping.readSteps guards left names) (mapping.readSteps guards' right names) := by
  induction names generalizing guards guards' left right with
  | nil =>
    refine .ok ?_
    rw [SameType, Expr.type_unlessNull, Expr.type_unlessNull]
    exact same
  | cons name rest ih =>
    exact Related.bind (readSame_sameType same name) fun next next' sameNext => ih sameNext

theorem readMapped_sameType (same : SameType left right) (modelType member : String) :
    Related SameType (mapping.readMapped modelType member left)
      (mapping.readMapped modelType member right) := by
  unfold readMapped
  cases mapping.origin? modelType member with
  | none => exact readSame_sameType same member
  | some origin =>
    match origin with
    | .parameter name => exact .failed _ _
    | .path [] => exact .ok same
    | .path (name :: rest) =>
      exact Related.bind (readSame_sameType same name) fun next next' sameNext =>
        readSteps_sameType sameNext rest

end SameType

section Missing

def Missing (outcome : Outcome Value) : Prop :=
  outcome = .ok .null ∨ ∃ cause, outcome = .error cause

variable {rows : List Value} {scope : Scope}

theorem eval_member_missing {target : Expr} (missing : Missing (eval rows scope target))
    (name : String) (ty : DataType) :
    ∃ cause, eval rows scope (.member target name ty) = .error cause := by
  simp only [eval]
  rcases missing with isNull | ⟨cause, failed⟩
  · rw [isNull]
    exact ⟨_, rfl⟩
  · rw [failed]
    exact ⟨cause, rfl⟩

theorem eval_readSteps_missing {guards : List Expr} {current : Expr}
    (fails : ∃ cause, eval rows scope (Expr.unlessNull guards current) = .error cause)
    (reads : mapping.readSteps guards current names = .ok read) :
    ∃ cause, eval rows scope read = .error cause := by
  induction names generalizing guards current with
  | nil =>
    simp only [readSteps, Except.ok.injEq] at reads
    exact reads ▸ fails
  | cons name rest ih =>
    simp only [readSteps, bind_eq_ok] at reads
    obtain ⟨next, first, reads⟩ := reads
    obtain ⟨cause, failed⟩ := fails
    rw [Expr.eval_unlessNull] at failed
    refine ih ⟨cause, ?_⟩ reads
    rw [Expr.eval_unlessNull, List.map_append]
    exact guarded_append_error failed _

theorem eval_readMapped_missing {modelType member : String}
    (path : mapping.mapPath? modelType member = some names)
    (missing : Missing (eval rows scope source))
    (reads : mapping.readMapped modelType member source = .ok read) :
    (names = [] ∧ read = source) ∨ ∃ cause, eval rows scope read = .error cause := by
  rcases (readMapped_eq path source).1 reads with whole | ⟨name, rest, next, rfl, first, reads⟩
  · exact .inl whole
  · obtain ⟨typeName, found, -, -, rfl⟩ := readSame_eq_ok first
    refine .inr (eval_readSteps_missing ?_ reads)
    exact eval_member_missing missing _ _

end Missing

section Alike

variable {rows rows' : List Value} {scope scope' : Scope}

structure AlikeIn (rows rows' : List Value) (scope scope' : Scope) (left right : Expr) : Prop where
  type : left.type = right.type
  agree : Agree (eval rows scope left) (eval rows' scope' right)

theorem AlikeIn.member {left right : Expr} (alike : AlikeIn rows rows' scope scope' left right)
    (name : String) (ty : DataType) :
    AlikeIn rows rows' scope scope' (.member left name ty) (.member right name ty) := by
  refine ⟨rfl, ?_⟩
  simp only [eval]
  exact Agree.bind alike.agree fun value => readMember_agree value name _ _

theorem AlikeIn.unlessNull {guards guards' : List Expr} {left right : Expr}
    (areGuards : List.Forall₂ (AlikeIn rows rows' scope scope') guards guards')
    (alike : AlikeIn rows rows' scope scope' left right) :
    AlikeIn rows rows' scope scope' (Expr.unlessNull guards left) (Expr.unlessNull guards' right) := by
  constructor
  · cases areGuards with
    | nil => exact alike.type
    | cons _ _ => simp only [Expr.unlessNull, Expr.type, alike.type]
  · rw [Expr.eval_unlessNull, Expr.eval_unlessNull]
    refine guarded_agree ?_ alike.agree
    rw [List.forall₂_map_left_iff, List.forall₂_map_right_iff]
    exact areGuards.imp fun _ _ guards => guards.agree

theorem readSame_alike {left right : Expr} (alike : AlikeIn rows rows' scope scope' left right)
    (member : String) :
    Related (AlikeIn rows rows' scope scope') (mapping.readSame left member)
      (mapping.readSame right member) := by
  unfold readSame
  rw [alike.type]
  cases right.type.typeName? with
  | none => exact .failed _ _
  | some typeName =>
    dsimp only
    cases mapping.schema.resolve typeName member with
    | error cause => exact .failed _ _
    | ok found => exact .ok (alike.member found.name found.ty)

theorem readSteps_alike {guards guards' : List Expr} {left right : Expr}
    (areGuards : List.Forall₂ (AlikeIn rows rows' scope scope') guards guards')
    (alike : AlikeIn rows rows' scope scope' left right) (names : List String) :
    Related (AlikeIn rows rows' scope scope') (mapping.readSteps guards left names)
      (mapping.readSteps guards' right names) := by
  induction names generalizing guards guards' left right with
  | nil => exact .ok (AlikeIn.unlessNull areGuards alike)
  | cons name rest ih =>
    simp only [readSteps]
    refine Related.bind (readSame_alike alike name) fun next next' nextAlike => ?_
    exact ih (List.rel_append areGuards (.cons alike .nil)) nextAlike

theorem readMapped_alike {left right : Expr} (alike : AlikeIn rows rows' scope scope' left right)
    (modelType member : String) :
    Related (AlikeIn rows rows' scope scope') (mapping.readMapped modelType member left)
      (mapping.readMapped modelType member right) := by
  unfold readMapped
  cases mapping.origin? modelType member with
  | none => exact readSame_alike alike member
  | some origin =>
    cases origin with
    | parameter name => exact .failed _ _
    | path names =>
      cases names with
      | nil => exact .ok alike
      | cons name rest =>
        exact Related.bind (readSame_alike alike name) fun next next' nextAlike =>
          readSteps_alike .nil nextAlike rest

theorem readAlong_alike {left right : Expr} (alike : AlikeIn rows rows' scope scope' left right)
    (path : MemberPath) :
    Related (List.Forall₂ (AlikeIn rows rows' scope scope')) (mapping.readAlong left path)
      (mapping.readAlong right path) := by
  induction path generalizing left right with
  | nil => exact .ok .nil
  | cons step rest ih =>
    simp only [readAlong]
    refine Related.bind (readMapped_alike alike _ _) fun read read' readAlike => ?_
    exact Related.bind (ih readAlike) fun reads reads' readsAlike => .ok (.cons readAlike readsAlike)

end Alike

end Mapping

end QueryProjection
