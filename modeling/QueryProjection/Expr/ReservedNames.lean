import QueryProjection.Expr.Subterms

set_option autoImplicit false

namespace QueryProjection

def Parameter.isReserved (param : Parameter) : Bool :=
  param.name.toList.head? == some '$'

/-- Appends zeros until the name is not taken; as many as there are taken names suffice. -/
def freshName (taken : List String) : (fuel : Nat) → String → String
  | 0, candidate => candidate
  | fuel + 1, candidate =>
      if taken.contains candidate then freshName taken fuel (candidate ++ "0") else candidate

def plainName (name : String) : String :=
  let plain := String.ofList (name.toList.dropWhile fun c => c == '$')
  if plain.isEmpty then "it" else plain

abbrev Renaming := List (Parameter × Parameter)

def extendRenaming (taken : List String) (names : Renaming) :
    List Parameter → Renaming
  | [] => names
  | param :: rest =>
      if param.isReserved && (names.lookup param).isNone then
        let name := freshName taken taken.length (plainName param.name)
        extendRenaming (name :: taken) (names ++ [(param, ⟨name, param.ty⟩)]) rest
      else extendRenaming taken names rest

def renamed (names : Renaming) (param : Parameter) : Parameter :=
  (names.lookup param).getD param

namespace Expr

mutual

def rename (names : Renaming) : Expr → Expr
  | .source ty => .source ty
  | .parameter param => .parameter (renamed names param)
  | .constant value ty => .constant value ty
  | .member target name ty => .member (rename names target) name ty
  | .construct ty bindings => .construct ty (renameBindings names bindings)
  | .lambda param body => .lambda (renamed names param) (rename names body)
  | .call method arguments ty => .call method (renameAll names arguments) ty
  | .binary operator left right =>
      .binary operator (rename names left) (rename names right)
  | .negation operand => .negation (rename names operand)
  | .conditional test whenTrue whenFalse ty =>
      .conditional (rename names test) (rename names whenTrue) (rename names whenFalse) ty
  | .convert operand ty => .convert (rename names operand) ty
  | .function called arguments => .function called (renameAll names arguments)

def renameAll (names : Renaming) : List Expr → List Expr
  | [] => []
  | expr :: rest => rename names expr :: renameAll names rest

def renameBindings (names : Renaming) : List (String × Expr) → List (String × Expr)
  | [] => []
  | (name, expr) :: rest => (name, rename names expr) :: renameBindings names rest

end

def renamingOf (expr : Expr) : Renaming :=
  let declared := expr.lambdaParameters
  let taken := (declared.filter fun param => !param.isReserved).map fun param => param.name
  extendRenaming taken [] declared

def withoutReservedNames (expr : Expr) : Expr :=
  rename expr.renamingOf expr

end Expr

end QueryProjection
