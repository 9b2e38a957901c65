import QueryProjection.Forest.Includes
import QueryProjection.Mapping.Source
import QueryProjection.Value.Json

set_option autoImplicit false

namespace QueryProjection

inductive IncludeTree where
  | node (children : List (String × IncludeTree))

namespace IncludeTree

def empty : IncludeTree := .node []

def children : IncludeTree → List (String × IncludeTree)
  | .node children => children

def updateChild (name : String) (change : IncludeTree → IncludeTree) :
    List (String × IncludeTree) → List (String × IncludeTree)
  | [] => [(name, change empty)]
  | (held, child) :: rest =>
      if held == name then (held, change child) :: rest
      else (held, child) :: updateChild name change rest

def insert : List String → IncludeTree → IncludeTree
  | [], tree => tree
  | name :: rest, .node children => .node (updateChild name (insert rest) children)

def isLeaf (tree : IncludeTree) : Bool := tree.children.isEmpty

def child? (tree : IncludeTree) (name : String) : Option IncludeTree :=
  (tree.children.find? fun entry => Text.sameName entry.1 name).map fun entry => entry.2

mutual

def depth : IncludeTree → Nat
  | .node children => depthBelow children

def depthBelow : List (String × IncludeTree) → Nat
  | [] => 0
  | (_, child) :: rest => max (child.depth + 1) (depthBelow rest)

end

end IncludeTree

abbrev ProjectionParameters := List (String × Json)

namespace Mapping

def itemNameAtDepth (depth : Nat) : String :=
  String.ofList ('x' :: List.replicate depth '0')

/-- The part of the tree for a member: none leaves the member at its default. -/
def includeFor (mapping : Mapping) (tree : IncludeTree) (member : MemberDecl) :
    Outcome (Option IncludeTree) :=
  match tree.child? member.name with
  | some child => .ok (some child)
  | none =>
      if tree.isLeaf then do
        return if (← mapping.schema.targetKind member.ty) = .entity then none else some .empty
      else .ok none

abbrev Construct := (modelType : String) → (source : Expr) → (depth : Nat) → Outcome Expr

def emptyWhenNull (value whenNull whenPresent : Expr) (ty : DataType) : Expr :=
  .conditional value.equalsNull whenNull whenPresent ty

def fitItems (construct : Construct) (memberType : DataType) (element : String) (value : Expr)
    (depth : Nat) : Outcome Expr := do
  let item : Parameter := ⟨itemNameAtDepth (depth + 1), value.type.elementType⟩
  let body ← construct element (.parameter item) (depth + 1)
  let projected := (value.selected ⟨item, body⟩).coercedTo memberType.collectionKind?
  return emptyWhenNull value (.constant (Value.defaultOf memberType) projected.type) projected
    projected.type

def fitRecord (construct : Construct) (element : String) (value : Expr) (depth : Nat) :
    Outcome Expr := do
  let record ← construct element value depth
  return emptyWhenNull value (.null (.named element)) record (.named element)

def fit (mapping : Mapping) (construct : Construct) (memberType : DataType) (value : Expr)
    (depth : Nat) : Outcome Expr := do
  match ← mapping.schema.targetKind memberType with
  | .primitive =>
      -- Collections of scalars are taken over as they are.
      if memberType.isCollection || value.type.nonNull = memberType.nonNull then
        return value
      else return .convert value memberType
  | .collection =>
      .error (.unsupported ("nested collection member of type " ++ memberType.toText))
  | _ =>
      match memberType.typeName? with
      | none => .error (.mapping (memberType.toText ++ " is not a structured type"))
      | some element =>
          if memberType.isCollection then fitItems construct memberType element value depth
          else fitRecord construct element value depth

/-- A parameter that is not supplied is null. -/
def parameterValue (mapping : Mapping) (parameters : ProjectionParameters) (name : String)
    (ty : DataType) : Outcome Value :=
  match parameters.lookup name with
  | some json => Value.ofJson mapping.schema json ty
  | none => .ok .null

def bindingValue (mapping : Mapping) (parameters : ProjectionParameters) (construct : Construct)
    (modelType : String) (member : MemberDecl) (source : Expr) (depth : Nat) : Outcome Expr :=
  match mapping.origin? modelType member.name with
  | some (.parameter name) => do
      return .constant (← mapping.parameterValue parameters name member.ty) member.ty
  | some (.path names) => do
      mapping.fit construct member.ty (← mapping.readPath source names) depth
  | none => do
      mapping.fit construct member.ty (← mapping.readSame source member.name) depth

def construct (mapping : Mapping) (parameters : ProjectionParameters) :
    (fuel : Nat) → IncludeTree → Construct
  | 0, _, modelType, _, _ => .error (.endlessProjection modelType)
  | fuel + 1, tree, modelType, source, depth => do
      let members ← mapping.schema.members modelType
      let bindings ← members.mapM fun member => do
        match ← mapping.includeFor tree member with
        | none => return (member.name, Expr.constant (Value.defaultOf member.ty) member.ty)
        | some child =>
            return (member.name, ← mapping.bindingValue parameters
              (construct mapping parameters fuel child) modelType member source depth)
      return .construct (.named modelType) bindings

/-- Below the tree the construction depends on the model type and the type of the source alone, which
is that of the root or one that a member is read with. A chain longer than there are pairs of them
never ends. -/
def constructionDepth (mapping : Mapping) (tree : IncludeTree) : Nat :=
  tree.depth + mapping.schema.types.length * (mapping.schema.readTypes.length + 1) + 1

def includeTree (includes : List Lambda) : Outcome IncludeTree :=
  includes.foldlM (fun tree path => do return tree.insert (← Include.membersRead path)) .empty

def project (mapping : Mapping) (sourceType modelType : String) (includes : List Lambda)
    (parameters : ProjectionParameters) : Outcome Lambda := do
  let _ ← mapping.schema.get sourceType
  let tree ← includeTree includes
  let root : Parameter := ⟨itemNameAtDepth 0, .named sourceType⟩
  let fuel := mapping.constructionDepth tree
  return ⟨root, ← mapping.construct parameters fuel tree modelType (.parameter root) 0⟩

end Mapping

end QueryProjection
