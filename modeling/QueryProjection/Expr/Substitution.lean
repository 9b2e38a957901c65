import QueryProjection.Expr.Basic

set_option autoImplicit false

namespace QueryProjection

namespace Expr

mutual

def substitute (target : Parameter) (replacement : Expr) : Expr → Expr
  | .source ty => .source ty
  | .parameter param => if param = target then replacement else .parameter param
  | .constant value ty => .constant value ty
  | .member owner name ty => .member (substitute target replacement owner) name ty
  | .construct ty bindings => .construct ty (substituteBindings target replacement bindings)
  | .lambda param body =>
      if param = target then .lambda param body
      else .lambda param (substitute target replacement body)
  | .call method arguments ty => .call method (substituteAll target replacement arguments) ty
  | .binary operator left right =>
      .binary operator (substitute target replacement left) (substitute target replacement right)
  | .negation operand => .negation (substitute target replacement operand)
  | .conditional test whenTrue whenFalse ty =>
      .conditional (substitute target replacement test) (substitute target replacement whenTrue)
        (substitute target replacement whenFalse) ty
  | .convert operand ty => .convert (substitute target replacement operand) ty
  | .function called arguments =>
      .function called (substituteAll target replacement arguments)

def substituteAll (target : Parameter) (replacement : Expr) : List Expr → List Expr
  | [] => []
  | expr :: rest => substitute target replacement expr :: substituteAll target replacement rest

def substituteBindings (target : Parameter) (replacement : Expr) :
    List (String × Expr) → List (String × Expr)
  | [] => []
  | (name, expr) :: rest =>
      (name, substitute target replacement expr) :: substituteBindings target replacement rest

end

end Expr

def Lambda.applyTo (lambda : Lambda) (argument : Expr) : Expr :=
  Expr.substitute lambda.parameter argument lambda.body

end QueryProjection
