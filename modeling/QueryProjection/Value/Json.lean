import QueryProjection.Json.Printer
import QueryProjection.Schema.Basic
import QueryProjection.Value.Basic

set_option autoImplicit false

namespace QueryProjection.Value

def mismatch (ty : DataType) (json : Json) : Error :=
  .typeMismatch ("expected " ++ ty.toText ++ ", found " ++ json.toText)

def fitsInt32 (number : Int) : Bool :=
  -Nat.pow 2 31 ≤ number && number < Nat.pow 2 31

def numberOf? : Json → Option Value
  | json =>
      match json.asSigned? with
      | some value => some (.int value)
      | none => json.asFloat?.map .float

def decimalOf? : Json → Option Decimal
  | .integer value => Decimal.read? (toString value)
  | .float value => Decimal.read? (Json.floatText value)
  | .string text => Decimal.read? text
  | _ => none

def scalarOf? : ScalarKind → Json → Option Value
  | .boolean, json => json.asBool?.map .bool
  | .int32, json => (json.asSigned?.filter fitsInt32).map .int
  | .int64, json => json.asSigned?.map .int
  | .double, json => json.asFloat?.map .float
  | .decimal, json => (decimalOf? json).map .decimal
  | .string, json => json.asText?.map .string
  | .enumeration, json => json.asText?.map .enumeration
  | .uuid, json => (json.asText?.bind Uuid.read?).map .uuid
  | .dateTime, json => (json.asText?.bind Timestamp.read?).map .dateTime
  | .date, json => (json.asText?.bind Date.read?).map .date
  | .time, json => (json.asText?.bind TimeOfDay.read?).map .time

def readScalar (kind : ScalarKind) (json : Json) : Outcome Value :=
  match scalarOf? kind json with
  | some value => .ok value
  | none => .error (mismatch (.scalar kind) json)

mutual

def ofUntypedJson : Json → Value
  | .null => .null
  | .bool value => .bool value
  | .integer value => (numberOf? (.integer value)).getD .null
  | .float value => (numberOf? (.float value)).getD .null
  | .string text => .string text
  | .array items => .list (ofUntypedItems items)
  | .object members => .record "Object" (Json.sortMembers (ofUntypedMembers members))

def ofUntypedItems : List Json → List Value
  | [] => []
  | item :: rest => ofUntypedJson item :: ofUntypedItems rest

def ofUntypedMembers : List (String × Json) → List (String × Value)
  | [] => []
  | (key, value) :: rest => (key, ofUntypedJson value) :: ofUntypedMembers rest

end

/-- The readers of an object's members, by key: the exact key, or else the first that differs in
case only. -/
def findReader {α : Type} (readers : List (String × α)) (name : String) : Option α :=
  match readers.lookup name with
  | some reader => some reader
  | none => (readers.find? fun reader => Text.sameName reader.1 name).map fun reader => reader.2

def readFields (readers : List (String × (DataType → Outcome Value))) :
    List MemberDecl → Outcome (List (String × Value))
  | [] => .ok []
  | member :: rest => do
      let value ← match findReader readers member.name with
        | some reader => reader member.ty
        | none => .ok (defaultOf member.ty)
      let fields ← readFields readers rest
      return (member.name, value) :: fields

mutual

def ofJson (schema : Schema) : Json → DataType → Outcome Value
  | .null, _ => .ok .null
  | .array items, ty =>
      match ty.nonNull with
      | .collection _ element => do return .list (← ofItems schema items element)
      | .object => .ok (ofUntypedJson (.array items))
      | other => .error (mismatch other (.array items))
  | .object members, ty =>
      match ty.nonNull with
      | .named name => do
          let declared ← schema.members name
          return .record name (← readFields (memberReaders schema members) declared)
      | .object => .ok (ofUntypedJson (.object members))
      | other => .error (mismatch other (.object members))
  | json, ty =>
      match ty.nonNull with
      | .scalar kind => readScalar kind json
      | .object => .ok (ofUntypedJson json)
      | other => .error (mismatch other json)

def ofItems (schema : Schema) : List Json → DataType → Outcome (List Value)
  | [], _ => .ok []
  | item :: rest, element => do
      let value ← ofJson schema item element
      let values ← ofItems schema rest element
      return value :: values

def memberReaders (schema : Schema) :
    List (String × Json) → List (String × (DataType → Outcome Value))
  | [] => []
  | (key, value) :: rest =>
      (key, fun ty => ofJson schema value ty) :: memberReaders schema rest

end

mutual

def toJson : Value → Json
  | .null => .null
  | .bool value => .bool value
  | .int value => .integer value
  | .float value => if value.isFinite then .float value else .null
  | .decimal value => .string value.toText
  | .string value => .string value
  | .uuid value => .string value.toText
  | .dateTime value => .string value.toZuluText
  | .date value => .string value.toText
  | .time value => .string value.toText
  | .enumeration name => .string name
  | .record _ fields => .ofMembers (fieldsToJson fields)
  | .list items => .array (itemsToJson items)

def itemsToJson : List Value → List Json
  | [] => []
  | item :: rest => item.toJson :: itemsToJson rest

def fieldsToJson : List (String × Value) → List (String × Json)
  | [] => []
  | (name, value) :: rest => (name, value.toJson) :: fieldsToJson rest

end

end QueryProjection.Value
