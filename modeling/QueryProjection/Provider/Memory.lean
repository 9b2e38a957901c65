import QueryProjection.Evaluation.Interpreter
import QueryProjection.Provider.Basic
import QueryProjection.Text.Basic

set_option autoImplicit false

namespace QueryProjection.Continuation

inductive Fault where
  | empty
  | invalidDigit
  | tooLarge
  deriving DecidableEq

def Fault.message : Fault → String
  | .empty => "cannot parse integer from empty string"
  | .invalidDigit => "invalid digit found in string"
  | .tooLarge => "number too large to fit in target type"

def readDigits (value : Nat) : List Char → Except Fault Nat
  | [] => .ok value
  | c :: rest =>
      if c.isDigit then
        let next := value * 10 + Text.digitValue c
        if next < Nat.pow 2 64 then readDigits next rest else .error .tooLarge
      else .error .invalidDigit

def read : List Char → Except Fault Nat
  | [] => .error .empty
  | ['+'] => .error .invalidDigit
  | '+' :: rest => readDigits 0 rest
  | chars => readDigits 0 chars

end QueryProjection.Continuation

namespace QueryProjection

structure MemoryRows where
  rows : List Value
  pageSize : Option Nat

namespace MemoryRows

/-- A page has at least one row. -/
def ofRows (rows : List Value) (pageSize : Option Nat) : MemoryRows :=
  ⟨rows, pageSize.map fun size => max size 1⟩

def execute (memory : MemoryRows) (expression : Expr) : Outcome (List Value) :=
  Evaluation.sequence memory.rows expression

def count (memory : MemoryRows) (expression : Expr) : Outcome Nat := do
  return (← memory.execute expression).length

def page (pageSize : Option Nat) (rows : List Value) (offset : Nat) : Page :=
  let stop := match pageSize with
    | some size => min (offset + size) rows.length
    | none => rows.length
  -- An offset beyond the end is an empty last page.
  ⟨(rows.take stop).drop offset, if stop < rows.length then some (toString stop) else none⟩

def readOffset : Option String → Outcome Nat
  | none => .ok 0
  | some continuation =>
      match Continuation.read continuation.toList with
      | .ok offset => .ok offset
      | .error fault => .error (.provider fault.message)

def nextPage (memory : MemoryRows) (expression : Expr) (continuation : Option String)
    (cancelled : Bool) : Outcome Page :=
  if cancelled then .error .cancelled
  else do
    let offset ← readOffset continuation
    return page memory.pageSize (← memory.execute expression) offset

def feedCount (memory : MemoryRows) (expression : Expr) (cancelled : Bool) : Outcome Nat :=
  if cancelled then .error .cancelled else memory.count expression

def pageBound (memory : MemoryRows) (expression : Expr) : Nat :=
  match memory.execute expression with
  | .ok rows => rows.length + 1
  | .error _ => 1

def feed (memory : MemoryRows) : Feed where
  nextPage expression continuation cancelled :=
    .immediate (memory.nextPage expression continuation cancelled)
  count expression cancelled := .immediate (memory.feedCount expression cancelled)
  pageBound := memory.pageBound

def provider (memory : MemoryRows) : Provider where
  execute expression := .immediate (memory.execute expression)
  count expression := .immediate (memory.count expression)
  feed? := some memory.feed
  guardsNulls := true

end MemoryRows

end QueryProjection
