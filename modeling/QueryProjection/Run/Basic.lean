import QueryProjection.Provider.Basic
import QueryProjection.Request.Options

set_option autoImplicit false

namespace QueryProjection

structure Token where
  firesIn : Option Nat
  deriving DecidableEq

namespace Token

def idle : Token := ⟨none⟩

def cancelled : Token := ⟨some 0⟩

def isCancelled (token : Token) : Bool := token.firesIn == some 0

def after (token : Token) (moments : Nat) : Token :=
  ⟨token.firesIn.map fun left => left - moments⟩

def interrupts (token : Token) : (moments : Option Nat) → Bool
  | some moments => moments != 0 && token.firesIn.any fun left => left ≤ moments
  | none => token.firesIn.isSome

end Token

structure RunState where
  token : Token
  feature : Feature
  calls : List ProviderCall

inductive Halt where
  | refused (cause : Error)
  | endless
  deriving DecidableEq

abbrev Run := EStateM Halt RunState

namespace Run

def refuse {α : Type} (cause : Error) : Run α := throw (.refused cause)

def ofOutcome {α : Type} : Outcome α → Run α
  | .ok value => pure value
  | .error cause => refuse cause

/-- Takes a moment. A run that watches no token never finds it cancelled. -/
def findsCancelled (watched : Bool) : Run Bool := do
  let state ← get
  set { state with token := state.token.after 1 }
  return watched && state.token.isCancelled

def stopIfCancelled (watched : Bool) : Run Unit := do
  if ← findsCancelled watched then refuse .cancelled

/-- Makes a call and waits for its end. A call that is raced is given up when the token fires while
the call is pending; a call that ends when it is made is never given up. -/
def ask {α : Type} (raced : Bool) (call : ProviderCall) (answer : Answer α) : Run α := do
  let state ← get
  -- A call that cancels does so when it is made, before it is waited for.
  let token := if answer.cancels then Token.cancelled else state.token
  set { state with
    calls := state.calls ++ [call]
    token := token.after (answer.pending.getD 0) }
  if raced && token.interrupts answer.pending then refuse .cancelled
  else if answer.pending.isNone then throw .endless
  else ofOutcome answer.outcome

def record (change : Feature → Feature) : Run Unit :=
  modify fun state => { state with feature := change state.feature }

end Run

end QueryProjection
