import QueryProjection.Expr.Basic

set_option autoImplicit false

namespace QueryProjection.Expr

mutual

def subterms : Expr → List Expr
  | .source ty => [.source ty]
  | .parameter param => [.parameter param]
  | .constant value ty => [.constant value ty]
  | .member target name ty => .member target name ty :: target.subterms
  | .construct ty bindings => .construct ty bindings :: bindingSubterms bindings
  | .lambda param body => .lambda param body :: body.subterms
  | .call method arguments ty => .call method arguments ty :: allSubterms arguments
  | .binary operator left right =>
      .binary operator left right :: (left.subterms ++ right.subterms)
  | .negation operand => .negation operand :: operand.subterms
  | .conditional test whenTrue whenFalse ty =>
      .conditional test whenTrue whenFalse ty ::
        (test.subterms ++ whenTrue.subterms ++ whenFalse.subterms)
  | .convert operand ty => .convert operand ty :: operand.subterms
  | .function called arguments => .function called arguments :: allSubterms arguments

def allSubterms : List Expr → List Expr
  | [] => []
  | expr :: rest => expr.subterms ++ allSubterms rest

def bindingSubterms : List (String × Expr) → List Expr
  | [] => []
  | (_, expr) :: rest => expr.subterms ++ bindingSubterms rest

end

def isCallOf (method : SequenceMethod) : Expr → Bool
  | .call other _ _ => other == method
  | _ => false

def callsTo (expr : Expr) (method : SequenceMethod) : Nat :=
  expr.subterms.countP (isCallOf method)

def lambdaParameter? : Expr → Option Parameter
  | .lambda param _ => some param
  | _ => none

def lambdaParameters (expr : Expr) : List Parameter :=
  expr.subterms.filterMap lambdaParameter?

end QueryProjection.Expr
