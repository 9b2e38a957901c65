import QueryProjection.Error
import QueryProjection.Expr.Basic

set_option autoImplicit false

namespace QueryProjection

inductive ProviderCall where
  | execute (expression : Expr)
  | count (expression : Expr)
  | nextPage (expression : Expr) (continuation : Option String)
  | feedCount (expression : Expr)

structure Answer (α : Type) where
  cancels : Bool
  pending : Option Nat
  outcome : Outcome α

def Answer.immediate {α : Type} (outcome : Outcome α) : Answer α :=
  ⟨false, some 0, outcome⟩

structure Page where
  items : List Value
  continuation : Option String

/-- Reading in pages. Every call is told whether the token is cancelled when the call is made. -/
structure Feed where
  nextPage : Expr → (continuation : Option String) → (cancelled : Bool) → Answer Page
  count : Expr → (cancelled : Bool) → Answer Nat
  pageBound : Expr → Nat

structure Provider where
  execute : Expr → Answer (List Value)
  count : Expr → Answer Nat
  feed? : Option Feed
  guardsNulls : Bool

structure Query where
  provider : Provider
  elementType : String
  expression : Expr

def Query.ofProvider (provider : Provider) (elementType : String) : Query :=
  ⟨provider, elementType, .allRows elementType⟩

end QueryProjection
