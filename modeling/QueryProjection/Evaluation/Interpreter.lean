import QueryProjection.Error
import QueryProjection.Evaluation.StableSort
import QueryProjection.Expr.Printer
import QueryProjection.Text.Basic
import QueryProjection.Text.CaseMapping
import QueryProjection.Value.Order

set_option autoImplicit false

namespace QueryProjection.Evaluation

abbrev Scope := List (String × Value)

def fault {α : Type} (detail : String) : Outcome α := .error (.evaluation detail)

def readMember (value : Value) (name : String) (whole : Expr) : Outcome Value :=
  match value with
  | .record typeName fields =>
      match Value.findField fields name with
      | some held => .ok held
      | none => fault ("type " ++ typeName ++ " has no member " ++ name)
  | .null => fault ("null reference reading " ++ name ++ " in " ++ whole.toText)
  | other => fault ("cannot read " ++ name ++ " from " ++ other.toText)

def truth : Value → Outcome Bool
  | .bool value => .ok value
  | .null => .ok false
  | other => fault ("expected a boolean, got " ++ other.toText)

def negate : Value → Outcome Value
  | .bool value => .ok (.bool !value)
  | .null => .ok .null
  | other => fault ("Not applied to " ++ other.toText)

/-- Comparisons of order are false when the values are not comparable, null included. -/
def compareBy (operator : BinaryOperator) (left right : Value) : Bool :=
  match operator, Value.compare? left right with
  | .eq, _ => left.equals right
  | .ne, _ => !left.equals right
  | .gt, some order => order == .gt
  | .ge, some order => order != .lt
  | .lt, some order => order == .lt
  | .le, some order => order != .gt
  | _, _ => false

def convert (value : Value) (ty : DataType) : Value :=
  match ty.scalarKind?, value with
  | some .double, .int number => .float (.ofInt number)
  | some .decimal, .int number => .decimal (.ofInt number)
  | some .string, .enumeration name => .string name
  | _, other => other

def textArgument (values : List Value) (index : Nat) (function : TextFunction) :
    Outcome String :=
  match values[index]? with
  | some (.string text) => .ok text
  | some (.enumeration name) => .ok name
  | some .null => fault ("null reference in " ++ function.name)
  | some other => fault (function.name ++ " expects a string, got " ++ other.toText)
  | none => fault (function.name ++ " is missing an argument")

def applyFunction (function : TextFunction) (values : List Value) : Outcome Value := do
  let text ← textArgument values 0 function
  match function with
  | .contains => return .bool (Text.contains text (← textArgument values 1 function))
  | .startsWith => return .bool (Text.startsWith text (← textArgument values 1 function))
  | .endsWith => return .bool (Text.endsWith text (← textArgument values 1 function))
  | .toLower => return .string (Text.toLower text)
  | .toUpper => return .string (Text.toUpper text)
  | .length => return .int text.length

def itemsFor (method : SequenceMethod) : Value → Outcome (List Value)
  | .list items => .ok items
  | .null => fault ("null sequence passed to " ++ method.name)
  | other => fault (method.name ++ " applied to non-sequence " ++ other.toText)

def itemsOf (whole : Expr) : Value → Outcome (List Value)
  | .list items => .ok items
  | other => fault ("expected a sequence from " ++ whole.toText ++ ", got " ++ other.toText)

def countOf (method : SequenceMethod) (value : Value) : Outcome Nat :=
  match value.asInt? with
  | some number =>
      if number < 0 then
        fault (method.name ++ " count " ++ toString number ++ " is negative")
      else .ok number.toNat
  | none => fault (method.name ++ " count is not an integer")

/-- Keeps the items for which the predicate is true; any other value drops the item. -/
def keepWhere (predicate : Value → Outcome Value) : List Value → Outcome (List Value)
  | [] => .ok []
  | item :: rest => do
      let verdict ← predicate item
      let kept ← keepWhere predicate rest
      return if verdict.asBool? = some true then item :: kept else kept

def mapItems (selector : Value → Outcome Value) : List Value → Outcome (List Value)
  | [] => .ok []
  | item :: rest => do
      let value ← selector item
      let values ← mapItems selector rest
      return value :: values

structure SortKey where
  key : Value → Outcome Value
  descending : Bool

def keysOf (keys : List SortKey) (item : Value) : Outcome (List Value) :=
  match keys with
  | [] => .ok []
  | first :: rest => do
      let value ← first.key item
      let values ← keysOf rest item
      return value :: values

def keyItems (keys : List SortKey) : List Value → Outcome (List (List Value × Value))
  | [] => .ok []
  | item :: rest => do
      let values ← keysOf keys item
      let keyed ← keyItems keys rest
      return (values, item) :: keyed

def compareKeys : List SortKey → List Value → List Value → Ordering
  | level :: levels, left :: lefts, right :: rights =>
      let order := left.sortOrder right
      (if level.descending then order.swap else order).then (compareKeys levels lefts rights)
  | _, _, _ => .eq

def sortItems (keys : List SortKey) (items : List Value) : Outcome Value := do
  let keyed ← keyItems keys items
  let sorted := StableSort.sort (fun left right => compareKeys keys left.1 right.1) keyed
  return .list (sorted.map fun entry => entry.2)

def lambdaExpected {α : Type} (method : SequenceMethod) : Outcome α :=
  fault (method.name ++ " expects a lambda argument")

mutual

def eval (rows : List Value) (scope : Scope) : Expr → Outcome Value
  | .source _ => .ok (.list rows)
  | .parameter param =>
      match scope.lookup param.name with
      | some value => .ok value
      | none => fault ("unbound parameter " ++ param.name)
  | .constant value _ => .ok value
  | .member target name ty => do
      readMember (← eval rows scope target) name (.member target name ty)
  | .construct ty bindings => do
      return Value.ofFields (ty.typeName?.getD "Object") (← evalBindings rows scope bindings)
  | .lambda param body =>
      fault ("lambda " ++ (Expr.lambda param body).toText ++
        " cannot be evaluated without an argument")
  | .call method arguments ty =>
      if method.isOrdering then do
        let (keys, items) ← evalOrder rows scope (.call method arguments ty) method arguments
        sortItems keys items
      else evalCall rows scope method arguments
  | .binary .andAlso left right => do
      if ← truth (← eval rows scope left) then
        return .bool (← truth (← eval rows scope right))
      else return .bool false
  | .binary .orElse left right => do
      if ← truth (← eval rows scope left) then return .bool true
      else return .bool (← truth (← eval rows scope right))
  | .binary operator left right => do
      let value ← eval rows scope left
      return .bool (compareBy operator value (← eval rows scope right))
  | .negation operand => do negate (← eval rows scope operand)
  | .conditional test whenTrue whenFalse _ => do
      if ← truth (← eval rows scope test) then eval rows scope whenTrue
      else eval rows scope whenFalse
  | .convert operand ty => do return convert (← eval rows scope operand) ty
  | .function called arguments => do
      applyFunction called (← evalAll rows scope arguments)

def evalAll (rows : List Value) (scope : Scope) : List Expr → Outcome (List Value)
  | [] => .ok []
  | expr :: rest => do
      let value ← eval rows scope expr
      let values ← evalAll rows scope rest
      return value :: values

def evalBindings (rows : List Value) (scope : Scope) :
    List (String × Expr) → Outcome (List (String × Value))
  | [] => .ok []
  | (name, expr) :: rest => do
      let value ← eval rows scope expr
      let values ← evalBindings rows scope rest
      return (name, value) :: values

def evalCall (rows : List Value) (scope : Scope) (method : SequenceMethod) :
    List Expr → Outcome Value
  | [] => fault (method.name ++ " without a source")
  | sequence :: rest => do
      let items ← itemsFor method (← eval rows scope sequence)
      match method with
      | .filter =>
          match rest with
          | .lambda param body :: _ =>
              return .list (← keepWhere
                (fun item => eval rows ((param.name, item) :: scope) body) items)
          | _ => lambdaExpected method
      | .select =>
          match rest with
          | .lambda param body :: _ =>
              return .list (← mapItems
                (fun item => eval rows ((param.name, item) :: scope) body) items)
          | _ => lambdaExpected method
      | .skip =>
          match rest with
          | number :: _ =>
              return .list (items.drop (← countOf method (← eval rows scope number)))
          | [] => fault (method.name ++ " without a count")
      | .take =>
          match rest with
          | number :: _ =>
              return .list (items.take (← countOf method (← eval rows scope number)))
          | [] => fault (method.name ++ " without a count")
      | _ => return .list items

/-- The levels of a chain of ordering calls, first level first, and the items below the chain. -/
def evalOrder (rows : List Value) (scope : Scope) (whole : Expr) (method : SequenceMethod) :
    List Expr → Outcome (List SortKey × List Value)
  | sequence :: .lambda param body :: _ => do
      let level : SortKey :=
        ⟨fun item => eval rows ((param.name, item) :: scope) body, method.isDescending⟩
      if method.startsOrder then
        return ([level], ← itemsOf sequence (← eval rows scope sequence))
      else
        match sequence with
        | .call inner arguments _ =>
            if inner.isOrdering then
              -- The outermost call decides last.
              let (levels, items) ← evalOrder rows scope whole inner arguments
              return (levels ++ [level], items)
            else fault ("ThenBy without OrderBy in " ++ whole.toText)
        | _ => fault (whole.toText ++ " has no OrderBy")
  | _ => lambdaExpected method

end

def sequence (rows : List Value) (expr : Expr) : Outcome (List Value) := do
  itemsOf expr (← eval rows [] expr)

end QueryProjection.Evaluation
