import QueryProjection.Expr.Printer
import QueryProjection.Filter.Literal
import QueryProjection.Schema.Basic
import QueryProjection.Text.Basic

set_option autoImplicit false

namespace QueryProjection

structure BindingContext where
  nullPropagation : Bool
  timeZone : Option Int
  deriving DecidableEq

/-- The parameter of bound predicates and order keys; no provider accepts the name. -/
def elementName : String := "$it"

structure Binder where
  schema : Schema
  elementType : String
  context : BindingContext

inductive OperandRole where
  | member
  | call
  | condition
  deriving DecidableEq

inductive Operand where
  | typed (role : OperandRole) (expr : Expr)
  | literal (value : FilterLiteral)

namespace Expr

def unlessNull (guards : List Expr) (expr : Expr) : Expr :=
  match guards with
  | [] => expr
  | first :: rest =>
      let test := rest.foldl (fun test guard => .binary .orElse test guard.equalsNull)
        first.equalsNull
      let ty := expr.type.orNull
      .conditional test (.null ty) expr ty

def truthConstant (value : Bool) : Expr :=
  .constant (.bool value) (.scalar .boolean)

def isConstant : Expr → Bool
  | .constant _ _ => true
  | _ => false

end Expr

namespace Comparison

def operator : Comparison → BinaryOperator
  | .eq => .eq
  | .ne => .ne
  | .gt => .gt
  | .ge => .ge
  | .lt => .lt
  | .le => .le

end Comparison

namespace Operand

def requireBoolean (expr : Expr) : Outcome Unit :=
  if expr.type.scalarKind? = some .boolean then .ok ()
  else .error (.typeMismatch (expr.toText ++ " is not a boolean"))

def asCondition : Operand → Outcome Expr
  | .typed .member expr => do
      requireBoolean expr
      return .binary .eq expr (.truthConstant true)
  | .typed .call expr => do
      requireBoolean expr
      return expr
  | .typed .condition expr => .ok expr
  | .literal (.bool value) => .ok (.truthConstant value)
  | .literal other =>
      .error (.invalidFilter (other.kindName ++ " literal used as a condition"))

def isTextual (expr : Expr) : Bool :=
  match expr.type.scalarKind? with
  | some .string => true
  | some .enumeration => true
  | _ => false

def asText (offset : Int) : Operand → Outcome Expr
  | .typed _ expr =>
      if isTextual expr then .ok expr
      else .error (.typeMismatch (expr.toText ++ " is not a string"))
  | .literal value => value.typedAs offset (.scalar .string)

def aligned (offset : Int) : Operand → Operand → Outcome (Expr × Expr)
  | .typed _ left, .typed _ right => .ok (left, right)
  | .typed _ left, .literal right => do return (left, ← right.typedAs offset left.type)
  | .literal left, .typed _ right => do return (← left.typedAs offset right.type, right)
  | .literal left, .literal right => do
      let first ← left.typedNaturally offset
      return (first, ← right.typedNaturally offset)

def asTarget (offset : Int) : Operand → Outcome Expr
  | .typed _ expr => .ok expr
  | .literal value => value.typedNaturally offset

end Operand

namespace Binder

def element (binder : Binder) : Parameter :=
  ⟨elementName, .named binder.elementType⟩

/-- Universal time unless the request has a time zone. -/
def offset (binder : Binder) : Int :=
  binder.context.timeZone.getD 0

/-- Reads the members one after another. Every expression but the first that a member is read from
becomes a guard. -/
def memberSteps (binder : Binder) (path : String) :
    (previous : Option String) → (guards : List Expr) → Expr → List String → Outcome Expr
  | _, guards, current, [] => .ok (Expr.unlessNull guards current)
  | previous, guards, current, segment :: rest =>
      if current.type.isCollection then
        .error (.unsupported
          ("navigating through collection '" ++ previous.getD "" ++ "' in '" ++ path ++ "'"))
      else match current.type.nonNull with
        | .named typeName => do
            let member ← binder.schema.resolve typeName segment
            -- The element itself is never null.
            let guarded := previous.isSome && binder.context.nullPropagation
            memberSteps binder path (some segment) (if guarded then guards ++ [current] else guards)
              (.member current member.name member.ty) rest
        | _ =>
            .error (.invalidFilter ("'" ++ segment ++ "' cannot be read from " ++
              current.type.toText ++ " in '" ++ path ++ "'"))

def memberPath (binder : Binder) (path : String) : Outcome Expr :=
  match Text.pathSegments path with
  | [] => .error (.invalidFilter ("empty member path '" ++ path ++ "'"))
  | segments => binder.memberSteps path none [] (.parameter binder.element) segments

def functionNamed (name : String) : Outcome TextFunction :=
  match TextFunction.all.find? fun function => Text.sameName function.name name with
  | some function => .ok function
  | none => .error (.unsupported ("$filter function '" ++ name ++ "'"))

def arity : TextFunction → Nat
  | .contains | .startsWith | .endsWith => 2
  | .toLower | .toUpper | .length => 1

def wrongArity {α : Type} (name : String) : Outcome α :=
  .error (.invalidFilter ("wrong number of arguments for '" ++ name ++ "'"))

def requireArity (name : String) (count : Nat) : Outcome TextFunction := do
  let function ← functionNamed name
  if arity function = count then return function else wrongArity name

def mayBeNull (binder : Binder) (target : Expr) : Bool :=
  binder.context.nullPropagation && !target.isConstant

/-- A test of null text is false. -/
def testCall (binder : Binder) (function : TextFunction) (target argument : Expr) : Expr :=
  let call := Expr.function function [target, argument]
  if binder.mayBeNull target then
    .binary .andAlso (.binary .ne target (.null target.type)) call
  else call

/-- A function of null text is null. -/
def valueCall (binder : Binder) (function : TextFunction) (target : Expr) : Expr :=
  let call := Expr.function function [target]
  let ty := function.resultType.orNull
  if binder.mayBeNull target then .conditional target.equalsNull (.null ty) call ty
  else call

def choiceTests (binder : Binder) (target : Expr) : List Filter → Outcome (List Expr)
  | [] => .ok []
  | .literal value :: rest => do
      let candidate ← value.typedAs binder.offset target.type
      let tests ← choiceTests binder target rest
      return .binary .eq target candidate :: tests
  | _ :: _ => .error (.invalidFilter "'in' accepts literal values only")

def anyOf : List Expr → Expr
  | [] => .truthConstant false
  | first :: rest => rest.foldl (fun all test => .binary .orElse all test) first

def operand (binder : Binder) : Filter → Outcome Operand
  | .both left right => do
      let first ← (← operand binder left).asCondition
      return .typed .condition (.binary .andAlso first (← (← operand binder right).asCondition))
  | .either left right => do
      let first ← (← operand binder left).asCondition
      return .typed .condition (.binary .orElse first (← (← operand binder right).asCondition))
  | .negation inner => do
      return .typed .condition (.negation (← (← operand binder inner).asCondition))
  | .compare left comparison right => do
      let first ← operand binder left
      let (first, second) ← first.aligned binder.offset (← operand binder right)
      return .typed .condition (.binary comparison.operator first second)
  | .oneOf inner choices => do
      let target ← (← operand binder inner).asTarget binder.offset
      return .typed .condition (anyOf (← binder.choiceTests target choices))
  | .function name [target] => do
      let function ← requireArity name 1
      let text ← (← operand binder target).asText binder.offset
      return .typed .call (binder.valueCall function text)
  | .function name [target, argument] => do
      let function ← requireArity name 2
      let text ← (← operand binder target).asText binder.offset
      let other ← (← operand binder argument).asText binder.offset
      return .typed .call (binder.testCall function text other)
  | .function name arguments =>
      match requireArity name arguments.length with
      | .ok _ => wrongArity name
      | .error cause => .error cause
  | .member path => do return .typed .member (← binder.memberPath path)
  | .literal value => .ok (.literal value)

def predicate (binder : Binder) (filter : Filter) : Outcome Expr := do
  (← binder.operand filter).asCondition

end Binder

namespace Filter

def bind (schema : Schema) (elementType : String) (filter : Filter)
    (context : BindingContext) : Outcome Lambda := do
  let _ ← schema.get elementType
  let binder : Binder := ⟨schema, elementType, context⟩
  return ⟨binder.element, ← binder.predicate filter⟩

end Filter

structure ScopedFilter where
  filter : Filter
  elementType : String
  context : BindingContext

def ScopedFilter.bind (request : ScopedFilter) (schema : Schema) : Outcome Lambda :=
  request.filter.bind schema request.elementType request.context

end QueryProjection
