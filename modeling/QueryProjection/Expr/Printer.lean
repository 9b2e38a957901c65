import QueryProjection.Expr.Basic

set_option autoImplicit false

namespace QueryProjection

namespace Expr

def callText (name : String) : List String → String
  | [] => name ++ "()"
  | target :: rest => target ++ "." ++ name ++ "(" ++ ", ".intercalate rest ++ ")"

def functionText (name : String) : List String → String
  | [target] => target ++ "." ++ name ++ "()"
  | [target, argument] => target ++ "." ++ name ++ "(" ++ argument ++ ")"
  | _ => name ++ "(..)"

mutual

def toText : Expr → String
  | .source ty => "Source<" ++ ty.elementType.toText ++ ">"
  | .parameter param => param.name
  | .constant value _ => value.toText
  | .member target name _ => target.toText ++ "." ++ name
  | .construct ty bindings =>
      "new " ++ ty.toText ++ "() \x7b" ++ ", ".intercalate (bindingTexts bindings) ++ "\x7d"
  | .lambda param body => param.name ++ " => " ++ body.toText
  | .call method arguments _ => callText method.name (texts arguments)
  | .binary operator left right =>
      "(" ++ left.toText ++ " " ++ operator.symbol ++ " " ++ right.toText ++ ")"
  | .negation operand => "Not(" ++ operand.toText ++ ")"
  | .conditional test whenTrue whenFalse _ =>
      "IIF(" ++ test.toText ++ ", " ++ whenTrue.toText ++ ", " ++ whenFalse.toText ++ ")"
  | .convert operand ty => "Convert(" ++ operand.toText ++ ", " ++ ty.toText ++ ")"
  | .function called arguments => functionText called.name (texts arguments)

def texts : List Expr → List String
  | [] => []
  | expr :: rest => expr.toText :: texts rest

def bindingTexts : List (String × Expr) → List String
  | [] => []
  | (name, expr) :: rest => (name ++ " = " ++ expr.toText) :: bindingTexts rest

end

end Expr

def Lambda.toText (lambda : Lambda) : String := (Expr.ofLambda lambda).toText

end QueryProjection
