import QueryProjection.Request.Options

set_option autoImplicit false

namespace QueryProjection

structure Limits where
  maxTop : Nat
  maxSkip : Nat
  maxOrderKeys : Nat
  maxFilterNodes : Nat
  maxExpandDepth : Nat
  deriving DecidableEq

namespace Limits

def standard : Limits := ⟨1000, 1000000, 5, 200, 4⟩

def refuse (cause : RequestError) : Outcome Unit := .error (.request cause)

def checkTop (limits : Limits) (top : Nat) : Outcome Unit :=
  if limits.maxTop < top then refuse .invalidLimit else .ok ()

def checkSkip (limits : Limits) (skip : Nat) : Outcome Unit :=
  if limits.maxSkip < skip then refuse .invalidLimit else .ok ()

def checkFilter (limits : Limits) (filter : Filter) : Outcome Unit :=
  if limits.maxFilterNodes < filter.size then
    refuse (.invalidFilter
      ("Filter expression exceeds maximum of " ++ toString limits.maxFilterNodes ++ " nodes"))
  else .ok ()

def checkOrderCount (limits : Limits) (count : Nat) : Outcome Unit :=
  if limits.maxOrderKeys < count then
    refuse (.invalidOrder
      ("Too many orderby fields (max: " ++ toString limits.maxOrderKeys ++ ")"))
  else .ok ()

def checkExpandDepth (limits : Limits) (clause : Clause) : Outcome Unit :=
  let depth := clause.depth
  if limits.maxExpandDepth < depth then
    refuse (.invalidExpand ("Expansion depth " ++ toString depth ++ " exceeds maximum of " ++
      toString limits.maxExpandDepth))
  else .ok ()

def checkPresent {α : Type} (check : α → Outcome Unit) : Option α → Outcome Unit
  | some value => check value
  | none => .ok ()

def checkLevel (limits : Limits) (filter : Option Filter) (arrangement : Arrangement) :
    Outcome Unit := do
  checkPresent limits.checkTop arrangement.top
  checkPresent limits.checkSkip arrangement.skip
  checkPresent limits.checkFilter filter
  limits.checkOrderCount arrangement.order.length

def checkItems (limits : Limits) : List ClauseItem → Outcome Unit
  | [] => .ok ()
  | .expand _ nested filter arrangement :: rest => do
      limits.checkLevel filter arrangement
      match nested with
      | some ⟨_, items⟩ => checkItems limits items
      | none => .ok ()
      checkItems limits rest
  | _ :: rest => checkItems limits rest

def check (limits : Limits) (options : RequestOptions) : Outcome Unit := do
  limits.checkLevel options.filter ⟨options.order, options.skip, options.top⟩
  match options.clause with
  | some clause => do
      limits.checkExpandDepth clause
      limits.checkItems clause.items
  | none => .ok ()

end Limits

end QueryProjection
