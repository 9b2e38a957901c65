import QueryProjection.Calendar.Timestamp
import QueryProjection.Number.Decimal
import QueryProjection.Number.FloatText
import QueryProjection.Schema.DataType
import QueryProjection.Text.Basic
import QueryProjection.Uuid

set_option autoImplicit false

namespace QueryProjection

/-- The fields of a record are in order of declaration, each name once. -/
inductive Value where
  | null
  | bool (value : Bool)
  | int (value : Int)
  | float (value : Binary64)
  | decimal (value : Decimal)
  | string (value : String)
  | uuid (value : Uuid)
  | dateTime (value : Timestamp)
  | date (value : Date)
  | time (value : TimeOfDay)
  | enumeration (name : String)
  | record (typeName : String) (fields : List (String × Value))
  | list (items : List Value)

namespace Value

def defaultOf (ty : DataType) : Value :=
  if ty.isCollection then .list [] else .null

def isNull : Value → Bool
  | .null => true
  | _ => false

def asBool? : Value → Option Bool
  | .bool value => some value
  | _ => none

def asInt? : Value → Option Int
  | .int value => some value
  | _ => none

def asText? : Value → Option String
  | .string value => some value
  | .enumeration name => some name
  | _ => none

def asItems? : Value → Option (List Value)
  | .list items => some items
  | _ => none

/-- The field of exactly that name, or else the first that differs in case only. -/
def findField (fields : List (String × Value)) (name : String) : Option Value :=
  match fields.lookup name with
  | some value => some value
  | none => (fields.find? fun field => Text.sameName field.1 name).map fun field => field.2

def field? : Value → String → Option Value
  | .record _ fields, name => findField fields name
  | _, _ => none

def setField (name : String) (value : Value) : List (String × Value) → List (String × Value)
  | [] => [(name, value)]
  | (held, old) :: rest =>
      if held == name then (name, value) :: rest else (held, old) :: setField name value rest

def ofFields (typeName : String) (fields : List (String × Value)) : Value :=
  .record typeName (fields.foldl (fun set (name, value) => setField name value set) [])

mutual

def toText : Value → String
  | .null => "null"
  | .bool value => if value then "True" else "False"
  | .int value => toString value
  | .float value => value.plainText
  | .decimal value => value.toText
  | .string value => "\"" ++ value ++ "\""
  | .uuid value => value.toText
  | .dateTime value => value.toText
  | .date value => value.toText
  | .time value => value.toText
  | .enumeration name => name
  | .record typeName _ => "\x7b" ++ typeName ++ "\x7d"
  | .list items => "[" ++ ", ".intercalate (itemTexts items) ++ "]"

def itemTexts : List Value → List String
  | [] => []
  | item :: rest => item.toText :: itemTexts rest

end

end Value

end QueryProjection
