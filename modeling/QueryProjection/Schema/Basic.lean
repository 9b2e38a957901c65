import QueryProjection.Error
import QueryProjection.Schema.DataType
import QueryProjection.Text.Basic

set_option autoImplicit false

namespace QueryProjection

/-- An entity is navigable and only populated when expanded; a complex value is selected whole. -/
inductive TypeKind where
  | complex
  | entity
  deriving DecidableEq

inductive MemberKind where
  | primitive
  | complex
  | entity
  | collection
  deriving DecidableEq

def MemberKind.name : MemberKind → String
  | .primitive => "Primitive"
  | .complex => "Complex"
  | .entity => "Entity"
  | .collection => "Collection"

structure MemberDecl where
  name : String
  ty : DataType
  deriving DecidableEq

structure TypeDecl where
  name : String
  kind : TypeKind
  base : Option String
  members : List MemberDecl
  deriving DecidableEq

structure Schema where
  types : List TypeDecl

namespace Schema

def empty : Schema := ⟨[]⟩

def find? (schema : Schema) (name : String) : Option TypeDecl :=
  schema.types.find? fun typeDecl => typeDecl.name == name

def contains (schema : Schema) (name : String) : Bool :=
  (schema.find? name).isSome

def replaceOrAppend (typeDecl : TypeDecl) : List TypeDecl → List TypeDecl
  | [] => [typeDecl]
  | held :: rest =>
      if held.name == typeDecl.name then typeDecl :: rest
      else held :: replaceOrAppend typeDecl rest

def register (schema : Schema) (typeDecl : TypeDecl) : Schema :=
  ⟨replaceOrAppend typeDecl schema.types⟩

def ofList (types : List TypeDecl) : Schema :=
  types.foldl register empty

def get (schema : Schema) (name : String) : Outcome TypeDecl :=
  match schema.find? name with
  | some typeDecl => .ok typeDecl
  | none => .error (.unknownType name)

inductive ChainEnd where
  | root
  | cycle
  | missing (name : String)
  deriving DecidableEq

/-- The definitions met on the way from a type to its last base, none of them twice. Names already
seen are registered and different, so as much fuel as there are types is never used up. -/
def baseChain (schema : Schema) : (fuel : Nat) → (seen : List String) → String →
    List TypeDecl × ChainEnd
  | 0, _, _ => ([], .cycle)
  | fuel + 1, seen, name =>
      if seen.contains name then ([], .cycle)
      else match schema.find? name with
        | none => ([], .missing name)
        | some typeDecl =>
            match typeDecl.base with
            | none => ([typeDecl], .root)
            | some base =>
                let (bases, chainEnd) := baseChain schema fuel (name :: seen) base
                (typeDecl :: bases, chainEnd)

def chainOf (schema : Schema) (name : String) : List TypeDecl × ChainEnd :=
  schema.baseChain (schema.types.length + 1) [] name

def ancestry (schema : Schema) (name : String) : Outcome (List TypeDecl) :=
  match schema.chainOf name with
  | (chain, .root) => .ok chain
  | (_, .cycle) => .error (.cyclicBase name)
  | (_, .missing base) => .error (.unknownType base)

def findMember (members : List MemberDecl) (name : String) : Option MemberDecl :=
  members.find? fun member => Text.sameName member.name name

def member? (schema : Schema) (typeName memberName : String) : Option MemberDecl :=
  (schema.chainOf typeName).1.findSome? fun typeDecl => findMember typeDecl.members memberName

def resolve (schema : Schema) (typeName memberName : String) : Outcome MemberDecl :=
  match schema.member? typeName memberName with
  | some member => .ok member
  | none => .error (.unresolvedMember typeName memberName)

/-- A member takes the place of one of the same name, or the last place. -/
def overlay (members : List MemberDecl) (member : MemberDecl) : List MemberDecl :=
  match members with
  | [] => [member]
  | held :: rest =>
      if Text.sameName held.name member.name then member :: rest
      else held :: overlay rest member

def members (schema : Schema) (typeName : String) : Outcome (List MemberDecl) := do
  let chain ← schema.ancestry typeName
  return chain.reverse.foldl (fun all typeDecl => typeDecl.members.foldl overlay all) []

def scalarMembers (schema : Schema) (typeName : String) : Outcome (List MemberDecl) := do
  return (← schema.members typeName).filter fun member => member.ty.isScalar

def readTypes (schema : Schema) : List DataType :=
  schema.types.flatMap fun typeDecl => typeDecl.members.flatMap fun member => member.ty.layers

def memberKind (schema : Schema) (ty : DataType) : Outcome MemberKind :=
  match ty.nonNull with
  | .collection _ _ => .ok .collection
  | .named name =>
      match schema.get name with
      | .ok typeDecl => .ok (if typeDecl.kind = .complex then .complex else .entity)
      | .error cause => .error cause
  | _ => .ok .primitive

def targetKind (schema : Schema) (ty : DataType) : Outcome MemberKind :=
  schema.memberKind ty.elementType

end Schema

end QueryProjection
