import QueryProjection.Number.Binary64

set_option autoImplicit false

namespace QueryProjection

/-- An integer is a number written without point and exponent that fits 64 bits, signed or unsigned;
every other number is a finite float. The members of an object are in key order, each key once. -/
inductive Json where
  | null
  | bool (value : Bool)
  | integer (value : Int)
  | float (value : Binary64)
  | string (value : String)
  | array (items : List Json)
  | object (members : List (String × Json))
  deriving Inhabited

namespace Json

def insertMember {α : Type} (key : String) (value : α) :
    List (String × α) → List (String × α)
  | [] => [(key, value)]
  | (other, held) :: rest =>
      if key < other then (key, value) :: (other, held) :: rest
      else if key == other then (key, value) :: rest
      else (other, held) :: insertMember key value rest

def sortMembers {α : Type} (members : List (String × α)) : List (String × α) :=
  members.foldl (fun sorted (key, value) => insertMember key value sorted) []

def ofMembers (members : List (String × Json)) : Json :=
  .object (sortMembers members)

def fitsSigned (number : Int) : Bool :=
  -Nat.pow 2 63 ≤ number && number < Nat.pow 2 63

def fitsUnsigned (number : Int) : Bool :=
  0 ≤ number && number < Nat.pow 2 64

def isNull : Json → Bool
  | .null => true
  | _ => false

def asBool? : Json → Option Bool
  | .bool value => some value
  | _ => none

def asSigned? : Json → Option Int
  | .integer value => if fitsSigned value then some value else none
  | _ => none

def asUnsigned? : Json → Option Nat
  | .integer value => if fitsUnsigned value then some value.toNat else none
  | _ => none

def asFloat? : Json → Option Binary64
  | .integer value =>
      if fitsSigned value || fitsUnsigned value then some (.ofInt value) else none
  | .float value => if value.isFinite then some value else none
  | _ => none

def asText? : Json → Option String
  | .string value => some value
  | _ => none

def asItems? : Json → Option (List Json)
  | .array items => some items
  | _ => none

end Json

end QueryProjection
