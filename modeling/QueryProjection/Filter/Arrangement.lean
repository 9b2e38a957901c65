import QueryProjection.Filter.Binder

set_option autoImplicit false

namespace QueryProjection

inductive SortDirection where
  | ascending
  | descending
  deriving DecidableEq

structure OrderKey where
  path : String
  direction : SortDirection
  deriving DecidableEq

def SortDirection.toText : SortDirection → String
  | .ascending => "asc"
  | .descending => "desc"

def OrderKey.toText (key : OrderKey) : String :=
  key.path ++ " " ++ key.direction.toText

def OrderKey.listText (keys : List OrderKey) : String :=
  if keys.isEmpty then "(none)" else ", ".intercalate (keys.map OrderKey.toText)

structure Arrangement where
  order : List OrderKey
  skip : Option Nat
  top : Option Nat
  deriving DecidableEq

namespace Arrangement

def isEmpty (arrangement : Arrangement) : Bool :=
  arrangement.order.isEmpty && arrangement.skip.isNone && arrangement.top.isNone

def callsAdded (arrangement : Arrangement) : Nat :=
  arrangement.order.length + arrangement.skip.toList.length + arrangement.top.toList.length

/-- Counts of rows have to fit a signed integer of 64 bits. -/
def checkedCount (number : Nat) : Outcome Int :=
  if number < Nat.pow 2 63 then .ok number else .error (.request .invalidLimit)

def orderMethod (isFirst : Bool) (direction : SortDirection) : SequenceMethod :=
  match isFirst, direction with
  | true, .ascending => .orderBy
  | true, .descending => .orderByDescending
  | false, .ascending => .thenBy
  | false, .descending => .thenByDescending

def orderedBy (binder : Binder) : (isFirst : Bool) → Expr → List OrderKey → Outcome Expr
  | _, sequence, [] => .ok sequence
  | isFirst, sequence, key :: rest => do
      let path ← binder.memberPath key.path
      orderedBy binder false
        (.apply (orderMethod isFirst key.direction) [sequence, .lambda binder.element path]) rest

def skippedBy (sequence : Expr) : Option Nat → Outcome Expr
  | none => .ok sequence
  | some number => do return sequence.skipped (← checkedCount number)

def takenBy (sequence : Expr) : Option Nat → Outcome Expr
  | none => .ok sequence
  | some number => do return sequence.taken (← checkedCount number)

def applyTo (arrangement : Arrangement) (binder : Binder) (sequence : Expr) : Outcome Expr := do
  let ordered ← orderedBy binder true sequence arrangement.order
  takenBy (← skippedBy ordered arrangement.skip) arrangement.top

end Arrangement

end QueryProjection
