import QueryProjection.Forest.Path
import QueryProjection.Request.Clause

set_option autoImplicit false

namespace QueryProjection

structure Resolver where
  schema : Schema
  context : BindingContext
  maxExpandDepth : Nat

namespace Resolver

def invalidExpand {α : Type} (detail : String) : Outcome α :=
  .error (.request (.invalidExpand detail))

def stepOf (resolver : Resolver) (declaringType : String) (member : MemberDecl) :
    Outcome PathStep := do
  let kind ← resolver.schema.memberKind member.ty
  return ⟨member.name, declaringType, member.ty, kind, member.ty.isCollection, none, none⟩

def followFrom (resolver : Resolver) (path : MemberPath) (typeName : String) :
    List String → Outcome MemberPath
  | [] => .ok path
  | [name] => do
      let member ← resolver.schema.resolve typeName name
      return path ++ [← resolver.stepOf typeName member]
  | name :: next :: rest => do
      let member ← resolver.schema.resolve typeName name
      let step ← resolver.stepOf typeName member
      match step.element? with
      | some element => followFrom resolver (path ++ [step]) element (next :: rest)
      | none => .error (.unresolvedMember member.ty.toText next)

def follow (resolver : Resolver) (path : MemberPath) (typeName : String)
    (segments : List String) : Outcome MemberPath :=
  if segments.isEmpty then invalidExpand "empty member path"
  else resolver.followFrom path typeName segments

def passes (path : MemberPath) (typeName : String) : Bool :=
  path.any fun step => step.element? == some typeName

/-- Adds the members of a type that are no navigations, and those of complex members below it. A
complex type that the path has passed is not entered again, so every level passes one more type. -/
def defaultsWithin (resolver : Resolver) :
    (fuel : Nat) → (typeName : String) → MemberPath → Forest → Outcome Forest
  | 0, _, _, forest => .ok forest
  | fuel + 1, typeName, path, forest => do
      let members ← resolver.schema.members typeName
      members.foldlM (fun forest member => do
        let kind ← resolver.schema.targetKind member.ty
        let step ← resolver.stepOf typeName member
        match kind, member.ty.typeName? with
        | .primitive, _ => return forest.addSelect (path ++ [step])
        | .complex, some element =>
            if passes path element then return forest
            else defaultsWithin resolver fuel element (path ++ [step]) forest
        | _, _ => return forest) forest

def addDefaults (resolver : Resolver) (typeName : String) (path : MemberPath)
    (forest : Forest) : Outcome Forest :=
  resolver.defaultsWithin (resolver.schema.types.length + 1) typeName path forest

def checkItems : List ClauseItem → Outcome Unit
  | [] => .ok ()
  | .reference segments :: _ =>
      .error (.unsupported ("$expand=" ++ "/".intercalate segments ++ "/$ref"))
  | .count segments :: _ =>
      .error (.unsupported ("$select=" ++ "/".intercalate segments ++ "/$count"))
  | _ :: rest => checkItems rest

def expandTarget (resolver : Resolver) (path : MemberPath) (typeName : String)
    (segments : List String) (filter : Option Filter) (arrangement : Arrangement) :
    Outcome (MemberPath × String) := do
  let target ← resolver.follow path typeName segments
  if resolver.maxExpandDepth < target.length then
    invalidExpand ("'" ++ MemberPath.toText target ++ "' is nested deeper than " ++
      toString resolver.maxExpandDepth)
  else
    let memberType := (target.getLast?.map fun step => step.memberType).getD .object
    match ← resolver.schema.targetKind memberType, memberType.typeName? with
    | .entity, some element =>
        let bound := filter.map fun filter => ⟨filter, element, resolver.context⟩
        let arranged := if arrangement.isEmpty then none else some arrangement
        return (MemberPath.withOptions bound arranged target, element)
    | _, _ => invalidExpand ("'" ++ MemberPath.toText target ++ "' is not a navigation member")

def selectTarget (resolver : Resolver) (path : MemberPath) (typeName : String)
    (segments : List String) : Outcome (MemberPath × Option String) := do
  let target ← resolver.follow path typeName segments
  let memberType := (target.getLast?.map fun step => step.memberType).getD .object
  match ← resolver.schema.targetKind memberType with
  | .complex => return (target, memberType.typeName?)
  | _ => return (target, none)

/-- One level of a clause: first its expansions, then the default members if none is named, then the
named ones. -/
def level (resolver : Resolver) (typeName : String) (path : MemberPath)
    (allSelected : Bool) (items : List ClauseItem)
    (addExpands addSelects : Forest → Outcome Forest) (forest : Forest) :
    Outcome Forest := do
  checkItems items
  let forest ← addExpands forest
  let forest ←
    if Clause.takesDefaults ⟨allSelected, items⟩ then resolver.addDefaults typeName path forest
    else .ok forest
  addSelects forest

def expandsFurther : Option Clause → Bool
  | some clause => clause.items.any ClauseItem.isExpand
  | none => false

mutual

def addExpands (resolver : Resolver) (typeName : String) (path : MemberPath) :
    List ClauseItem → Forest → Outcome Forest
  | [], forest => .ok forest
  | .expand segments nested filter arrangement :: rest, forest => do
      let (target, element) ←
        resolver.expandTarget path typeName segments filter arrangement
      let forest ← match nested with
        | none => resolver.addDefaults element target forest
        | some ⟨allSelected, items⟩ =>
            resolver.level element target allSelected items
              (fun forest => addExpands resolver element target items forest)
              (fun forest => addSelects resolver element target items forest) forest
      -- An expansion with others below it is a part of their paths.
      let forest := if expandsFurther nested then forest else forest.addExpansion target
      addExpands resolver typeName path rest forest
  | _ :: rest, forest => addExpands resolver typeName path rest forest

/-- The nested clause of a member that is not complex is ignored. -/
def addSelects (resolver : Resolver) (typeName : String) (path : MemberPath) :
    List ClauseItem → Forest → Outcome Forest
  | [], forest => .ok forest
  | .path segments nested :: rest, forest => do
      let forest ← match ← resolver.selectTarget path typeName segments, nested with
        | (target, none), _ => .ok (forest.addSelect target)
        | (target, some element), none => resolver.addDefaults element target forest
        | (target, some element), some ⟨allSelected, items⟩ =>
            resolver.level element target allSelected items
              (fun forest => addExpands resolver element target items forest)
              (fun forest => addSelects resolver element target items forest) forest
      addSelects resolver typeName path rest forest
  | _ :: rest, forest => addSelects resolver typeName path rest forest

end

end Resolver

def Forest.build (schema : Schema) (rootType : String) (clause : Option Clause)
    (context : BindingContext) (maxExpandDepth : Nat) : Outcome Forest := do
  let _ ← schema.get rootType
  let resolver : Resolver := ⟨schema, context, maxExpandDepth⟩
  match clause with
  | none => resolver.addDefaults rootType [] .empty
  | some ⟨allSelected, items⟩ =>
      resolver.level rootType [] allSelected items (resolver.addExpands rootType [] items)
        (resolver.addSelects rootType [] items) .empty

end QueryProjection
