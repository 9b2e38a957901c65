import QueryProjection.Value.Basic

set_option autoImplicit false

namespace QueryProjection.Value

mutual

/-- Equality of content: fields are matched by name, in any order. -/
def same : Value → Value → Bool
  | .null, .null => true
  | .bool left, .bool right => left == right
  | .int left, .int right => left == right
  | .float left, .float right => left.equal right
  | .decimal left, .decimal right => left.sameValue right
  | .string left, .string right => left == right
  | .uuid left, .uuid right => left == right
  | .dateTime left, .dateTime right => left.sameInstant right
  | .date left, .date right => left == right
  | .time left, .time right => left == right
  | .enumeration left, .enumeration right => left == right
  | .record typeName fields, .record typeName' fields' =>
      typeName == typeName' && fields.length == fields'.length && sameFields fields fields'
  | .list items, .list items' => sameItems items items'
  | _, _ => false

def sameFields : List (String × Value) → List (String × Value) → Bool
  | [], _ => true
  | (name, value) :: rest, others =>
      (match others.lookup name with
        | some other => value.same other
        | none => false) && sameFields rest others

def sameItems : List Value → List Value → Bool
  | [], [] => true
  | item :: rest, item' :: rest' => item.same item' && sameItems rest rest'
  | _, _ => false

end

def isNumber : Value → Bool
  | .int _ | .float _ | .decimal _ => true
  | _ => false

def asFloat? : Value → Option Binary64
  | .int value => some (.ofInt value)
  | .float value => some value
  | .decimal value => some value.toBinary64
  | _ => none

def compareFloats (left right : Value) : Option Ordering := do
  Binary64.compare? (← left.asFloat?) (← right.asFloat?)

def compare? : Value → Value → Option Ordering
  | .int left, .int right => some (compare left right)
  | .decimal left, .decimal right => some (left.compareValue right)
  | .int left, .decimal right => some ((Decimal.ofInt left).compareValue right)
  | .decimal left, .int right => some (left.compareValue (Decimal.ofInt right))
  | .float left, right => compareFloats (.float left) right
  | left, .float right => compareFloats left (.float right)
  | .string left, .string right => some (compare left right)
  | .string left, .enumeration right => some (compare left right)
  | .enumeration left, .string right => some (compare left right)
  | .enumeration left, .enumeration right => some (compare left right)
  | .bool left, .bool right => some (compare left.toNat right.toNat)
  | .uuid left, .uuid right => some (compare left.bits right.bits)
  | .dateTime left, .dateTime right => some (left.compareInstant right)
  | .date left, .date right => some (left.compareDate right)
  | .time left, .time right => some (left.compareTime right)
  | _, _ => none

def isStructured : Value → Bool
  | .record _ _ | .list _ => true
  | _ => false

def equals (left right : Value) : Bool :=
  if left.isNull || right.isNull then left.isNull && right.isNull
  else if left.isStructured || right.isStructured then left.same right
  else compare? left right == some .eq

/-- The order used for sorting: nulls come first, and values that are not comparable are equal. -/
def sortOrder (left right : Value) : Ordering :=
  match left, right with
  | .null, .null => .eq
  | .null, _ => .lt
  | _, .null => .gt
  | _, _ => (compare? left right).getD .eq

end QueryProjection.Value
