import QueryProjection.Filter.Binder
import QueryProjection.Mapping.Basic

set_option autoImplicit false

namespace QueryProjection.Mapping

def cannotRead {α : Type} (member : String) (target : Expr) : Outcome α :=
  .error (.mapping ("cannot read " ++ member ++ " from " ++ target.toText))

def readSame (mapping : Mapping) (source : Expr) (member : String) : Outcome Expr :=
  match source.type.typeName? with
  | some sourceType => do
      let found ← mapping.schema.resolve sourceType member
      return .member source found.name found.ty
  | none => cannotRead member source

def readSteps (mapping : Mapping) : (guards : List Expr) → Expr → List String → Outcome Expr
  | guards, current, [] => .ok (Expr.unlessNull guards current)
  | guards, current, name :: rest => do
      readSteps mapping (guards ++ [current]) (← mapping.readSame current name) rest

def readPath (mapping : Mapping) (source : Expr) : List String → Outcome Expr
  | [] => .ok source
  | name :: rest => do readSteps mapping [] (← mapping.readSame source name) rest

def readMapped (mapping : Mapping) (modelType member : String) (source : Expr) : Outcome Expr :=
  match mapping.origin? modelType member with
  | some (.path names) => mapping.readPath source names
  | some (.parameter name) =>
      .error (.mapping
        (modelType ++ "." ++ member ++ " is bound to projection parameter '" ++ name ++ "'"))
  | none => mapping.readSame source member

def parameterToSource (mapping : Mapping) (param : Parameter) : Parameter :=
  ⟨param.name, mapping.typeToSource param.ty⟩

mutual

def toSource (mapping : Mapping) : Expr → Outcome Expr
  | .source ty => .ok (.source (mapping.typeToSource ty))
  | .parameter param => .ok (.parameter (mapping.parameterToSource param))
  | .constant value ty => .ok (.constant value (mapping.typeToSource ty))
  | .member target name _ =>
      match target.type.typeName? with
      | some modelType => do mapping.readMapped modelType name (← toSource mapping target)
      | none => cannotRead name target
  | .construct ty _ => .error (.mapping ("cannot translate construction of " ++ ty.toText))
  | .lambda param body => do
      return .lambda (mapping.parameterToSource param) (← toSource mapping body)
  | .call method arguments _ => do return .apply method (← allToSource mapping arguments)
  | .binary operator left right => do
      let first ← toSource mapping left
      return .binary operator first (← toSource mapping right)
  | .negation operand => do return .negation (← toSource mapping operand)
  | .conditional test whenTrue whenFalse ty => do
      let test ← toSource mapping test
      let first ← toSource mapping whenTrue
      return .conditional test first (← toSource mapping whenFalse) (mapping.typeToSource ty)
  | .convert operand ty => do
      return .convert (← toSource mapping operand) (mapping.typeToSource ty)
  | .function called arguments => do
      return .function called (← allToSource mapping arguments)

def allToSource (mapping : Mapping) : List Expr → Outcome (List Expr)
  | [] => .ok []
  | expr :: rest => do
      let first ← toSource mapping expr
      return first :: (← allToSource mapping rest)

end

def lambdaToSource (mapping : Mapping) (lambda : Lambda) : Outcome Lambda := do
  return ⟨mapping.parameterToSource lambda.parameter, ← mapping.toSource lambda.body⟩

def predicateToSource (mapping : Mapping) (predicate : Lambda) (sourceType : String) :
    Outcome Lambda := do
  let mapped ← mapping.lambdaToSource predicate
  if mapped.parameter.ty.typeName? = some sourceType then return mapped
  else .error (.mapping ("predicate over " ++ predicate.parameter.ty.toText ++
    " does not map onto " ++ sourceType))

end QueryProjection.Mapping
