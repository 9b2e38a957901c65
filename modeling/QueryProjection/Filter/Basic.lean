import QueryProjection.Calendar.Timestamp
import QueryProjection.Number.Numeral
import QueryProjection.Uuid

set_option autoImplicit false

namespace QueryProjection

inductive Comparison where
  | eq
  | ne
  | gt
  | ge
  | lt
  | le
  deriving DecidableEq

inductive FilterLiteral where
  | null
  | bool (value : Bool)
  | number (value : Numeral)
  | uuid (value : Uuid)
  | dateTime (value : Timestamp)
  | date (value : Date)
  | time (value : TimeOfDay)
  | string (value : String)
  deriving DecidableEq

def FilterLiteral.kindName : FilterLiteral → String
  | .null => "null"
  | .bool _ => "bool"
  | .number _ => "number"
  | .uuid _ => "uuid"
  | .dateTime _ => "datetime"
  | .date _ => "date"
  | .time _ => "time"
  | .string _ => "string"

inductive Filter where
  | both (left right : Filter)
  | either (left right : Filter)
  | negation (operand : Filter)
  | compare (left : Filter) (comparison : Comparison) (right : Filter)
  | oneOf (operand : Filter) (choices : List Filter)
  | function (name : String) (arguments : List Filter)
  | member (path : String)
  | literal (value : FilterLiteral)

namespace Filter

mutual

def size : Filter → Nat
  | .both left right => 1 + left.size + right.size
  | .either left right => 1 + left.size + right.size
  | .negation operand => 1 + operand.size
  | .compare left _ right => 1 + left.size + right.size
  | .oneOf operand choices => 1 + operand.size + listSize choices
  | .function _ arguments => 1 + listSize arguments
  | .member _ => 1
  | .literal _ => 1

def listSize : List Filter → Nat
  | [] => 0
  | filter :: rest => filter.size + listSize rest

end

end Filter

end QueryProjection
