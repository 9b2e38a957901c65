import QueryProjection.Proofs.Evaluation.Mirroring

set_option autoImplicit false

namespace QueryProjection

open Outcome

namespace Expr

def allLambdaParameters (exprs : List Expr) : List Parameter :=
  (allSubterms exprs).filterMap lambdaParameter?

def bindingLambdaParameters (bindings : List (String × Expr)) : List Parameter :=
  (bindingSubterms bindings).filterMap lambdaParameter?

@[simp] theorem lambdaParameters_source (ty : DataType) :
    (Expr.source ty).lambdaParameters = [] := rfl

@[simp] theorem lambdaParameters_parameter (param : Parameter) :
    (Expr.parameter param).lambdaParameters = [] := rfl

@[simp] theorem lambdaParameters_constant (value : Value) (ty : DataType) :
    (Expr.constant value ty).lambdaParameters = [] := rfl

@[simp] theorem lambdaParameters_member (target : Expr) (name : String) (ty : DataType) :
    (Expr.member target name ty).lambdaParameters = target.lambdaParameters := rfl

@[simp] theorem lambdaParameters_construct (ty : DataType) (bindings : List (String × Expr)) :
    (Expr.construct ty bindings).lambdaParameters = bindingLambdaParameters bindings := rfl

@[simp] theorem lambdaParameters_lambda (param : Parameter) (body : Expr) :
    (Expr.lambda param body).lambdaParameters = param :: body.lambdaParameters := rfl

@[simp] theorem lambdaParameters_call (method : SequenceMethod) (arguments : List Expr)
    (ty : DataType) :
    (Expr.call method arguments ty).lambdaParameters = allLambdaParameters arguments := rfl

@[simp] theorem lambdaParameters_binary (operator : BinaryOperator) (left right : Expr) :
    (Expr.binary operator left right).lambdaParameters =
      left.lambdaParameters ++ right.lambdaParameters := by
  simp only [lambdaParameters, subterms]
  rw [List.filterMap_cons_none rfl, List.filterMap_append]

@[simp] theorem lambdaParameters_negation (operand : Expr) :
    (Expr.negation operand).lambdaParameters = operand.lambdaParameters := rfl

@[simp] theorem lambdaParameters_conditional (test whenTrue whenFalse : Expr) (ty : DataType) :
    (Expr.conditional test whenTrue whenFalse ty).lambdaParameters =
      test.lambdaParameters ++ whenTrue.lambdaParameters ++ whenFalse.lambdaParameters := by
  simp only [lambdaParameters, subterms]
  rw [List.filterMap_cons_none rfl, List.filterMap_append, List.filterMap_append]

@[simp] theorem lambdaParameters_convert (operand : Expr) (ty : DataType) :
    (Expr.convert operand ty).lambdaParameters = operand.lambdaParameters := rfl

@[simp] theorem lambdaParameters_function (called : TextFunction) (arguments : List Expr) :
    (Expr.function called arguments).lambdaParameters = allLambdaParameters arguments := rfl

@[simp] theorem allLambdaParameters_nil : allLambdaParameters [] = [] := rfl

@[simp] theorem allLambdaParameters_cons (expr : Expr) (rest : List Expr) :
    allLambdaParameters (expr :: rest) = expr.lambdaParameters ++ allLambdaParameters rest := by
  simp [allLambdaParameters, lambdaParameters, allSubterms]

@[simp] theorem bindingLambdaParameters_nil : bindingLambdaParameters [] = [] := rfl

@[simp] theorem bindingLambdaParameters_cons (name : String) (expr : Expr)
    (rest : List (String × Expr)) :
    bindingLambdaParameters ((name, expr) :: rest) =
      expr.lambdaParameters ++ bindingLambdaParameters rest := by
  simp [bindingLambdaParameters, lambdaParameters, bindingSubterms]

end Expr

def Renaming.SeparatesNames (names : Renaming) (params : List Parameter) : Prop :=
  ∀ param ∈ params, ∀ other ∈ params,
    (renamed names param).name = (renamed names other).name → param.name = other.name

namespace Evaluation

def ScopeRenamed (names : Renaming) (declared : Declared) (scope scope' : Scope) : Prop :=
  ∀ param : Parameter, param.VisibleIn declared →
    scope.lookup param.name = scope'.lookup (renamed names param).name

variable {names : Renaming} {params : List Parameter} {declared : Declared} {scope scope' : Scope}

theorem ScopeRenamed.push (separates : names.SeparatesNames params) {param : Parameter}
    (isParam : param ∈ params) (within : declared ⊆ params)
    (same : ScopeRenamed names declared scope scope') (item : Value) :
    ScopeRenamed names (param :: declared) ((param.name, item) :: scope)
      (((renamed names param).name, item) :: scope') := by
  intro other visible
  rcases Parameter.visibleIn_cons.1 visible with rfl | ⟨apart, outside⟩
  · simp
  · have isOther := within (Parameter.mem_of_visibleIn outside)
    have apart' : (renamed names other).name ≠ (renamed names param).name := fun equal =>
      apart (separates other isOther param isParam equal).symm
    rw [List.lookup_cons, List.lookup_cons, beq_false_of_ne (Ne.symm apart),
      beq_false_of_ne apart']
    exact same other outside

theorem isOrderingCall_rename (names : Renaming) (expr : Expr) :
    (expr.rename names).isOrderingCall = expr.isOrderingCall := by
  cases expr <;> rfl

theorem keepsOrder_renameAll (names : Renaming) (method : SequenceMethod) (arguments : List Expr) :
    KeepsOrder method arguments (Expr.renameAll names arguments) := by
  intro _ sequence isFirst sequence' isFirst' ordered
  cases arguments with
  | nil => cases isFirst
  | cons first rest =>
    cases isFirst
    cases isFirst'
    rwa [isOrderingCall_rename] at ordered

mutual

theorem resembles_rename (rows : List Value) (separates : names.SeparatesNames params) (expr : Expr)
    {declared : Declared} {scope scope' : Scope} (within : declared ⊆ params)
    (declares : expr.lambdaParameters ⊆ params) (inScope : expr.ScopedIn declared)
    (same : ScopeRenamed names declared scope scope') :
    Resembles rows True scope scope' expr (expr.rename names) := by
  match expr with
  | .source ty => exact .source ty ty
  | .constant value ty => exact .constant value ty ty
  | .parameter param => exact .parameter (same param inScope)
  | .member target name ty =>
    exact .member (resembles_rename rows separates target within declares inScope same) name ty ty
  | .construct ty bindings =>
    exact .construct ty (bindings_resemble_rename rows separates bindings within declares inScope same)
  | .lambda param body =>
    rw [Expr.lambdaParameters_lambda, List.cons_subset] at declares
    -- The item is pushed under the old name on one side and under the new one on the other.
    refine .lambda fun item => resembles_rename rows separates body ?_ declares.2 inScope ?_
    · exact List.cons_subset.2 ⟨declares.1, within⟩
    · exact same.push separates declares.1 within item
  | .call method arguments ty =>
    refine .call method ty ty ?_ fun _ => keepsOrder_renameAll names method arguments
    exact all_resemble_rename rows separates arguments within declares inScope same
  | .binary operator left right =>
    rw [Expr.lambdaParameters_binary, List.append_subset] at declares
    exact .binary operator (resembles_rename rows separates left within declares.1 inScope.1 same)
      (resembles_rename rows separates right within declares.2 inScope.2 same)
  | .negation operand =>
    exact .negation (resembles_rename rows separates operand within declares inScope same)
  | .conditional test whenTrue whenFalse ty =>
    rw [Expr.lambdaParameters_conditional, List.append_subset, List.append_subset] at declares
    exact .conditional ty ty
      (resembles_rename rows separates test within declares.1.1 inScope.1 same)
      (resembles_rename rows separates whenTrue within declares.1.2 inScope.2.1 same)
      (resembles_rename rows separates whenFalse within declares.2 inScope.2.2 same)
  | .convert operand ty =>
    exact .convert (resembles_rename rows separates operand within declares inScope same) ty
  | .function called arguments =>
    exact .textFunction called
      (all_resemble_rename rows separates arguments within declares inScope same)

theorem all_resemble_rename (rows : List Value) (separates : names.SeparatesNames params)
    (exprs : List Expr) {declared : Declared} {scope scope' : Scope} (within : declared ⊆ params)
    (declares : Expr.allLambdaParameters exprs ⊆ params)
    (inScope : Expr.AllScopedIn declared exprs) (same : ScopeRenamed names declared scope scope') :
    List.Forall₂ (Resembles rows True scope scope') exprs (Expr.renameAll names exprs) := by
  match exprs with
  | [] => exact .nil
  | expr :: rest =>
    rw [Expr.allLambdaParameters_cons, List.append_subset] at declares
    exact .cons (resembles_rename rows separates expr within declares.1 inScope.1 same)
      (all_resemble_rename rows separates rest within declares.2 inScope.2 same)

theorem bindings_resemble_rename (rows : List Value) (separates : names.SeparatesNames params)
    (bindings : List (String × Expr)) {declared : Declared} {scope scope' : Scope}
    (within : declared ⊆ params) (declares : Expr.bindingLambdaParameters bindings ⊆ params)
    (inScope : Expr.BindingsScopedIn declared bindings)
    (same : ScopeRenamed names declared scope scope') :
    BindingsResemble rows True scope scope' bindings (Expr.renameBindings names bindings) := by
  match bindings with
  | [] => exact .nil
  | (name, expr) :: rest =>
    rw [Expr.bindingLambdaParameters_cons, List.append_subset] at declares
    exact .cons ⟨rfl, resembles_rename rows separates expr within declares.1 inScope.1 same⟩
      (bindings_resemble_rename rows separates rest within declares.2 inScope.2 same)

end

theorem eval_rename (rows : List Value) (separates : names.SeparatesNames params) (expr : Expr)
    {declared : Declared} {scope scope' : Scope} (within : declared ⊆ params)
    (declares : expr.lambdaParameters ⊆ params) (inScope : expr.ScopedIn declared)
    (same : ScopeRenamed names declared scope scope') :
    Agree (eval rows scope expr) (eval rows scope' (expr.rename names)) :=
  (resembles_rename rows separates expr within declares inScope same).value.related trivial

end Evaluation

namespace Expr

mutual

theorem rename_nil (expr : Expr) : expr.rename [] = expr := by
  match expr with
  | .source _ | .parameter _ | .constant _ _ => rfl
  | .member target _ _ => simp only [rename, rename_nil target]
  | .construct _ bindings => simp only [rename, renameBindings_nil bindings]
  | .lambda param body =>
    have same : renamed [] param = param := rfl
    simp only [rename, rename_nil body, same]
  | .call _ arguments _ => simp only [rename, renameAll_nil arguments]
  | .binary _ left right => simp only [rename, rename_nil left, rename_nil right]
  | .negation operand => simp only [rename, rename_nil operand]
  | .conditional test whenTrue whenFalse _ =>
    simp only [rename, rename_nil test, rename_nil whenTrue, rename_nil whenFalse]
  | .convert operand _ => simp only [rename, rename_nil operand]
  | .function _ arguments => simp only [rename, renameAll_nil arguments]

theorem renameAll_nil (exprs : List Expr) : renameAll [] exprs = exprs := by
  match exprs with
  | [] => rfl
  | expr :: rest => simp only [renameAll, rename_nil expr, renameAll_nil rest]

theorem renameBindings_nil (bindings : List (String × Expr)) :
    renameBindings [] bindings = bindings := by
  match bindings with
  | [] => rfl
  | (_, expr) :: rest => simp only [renameBindings, rename_nil expr, renameBindings_nil rest]

end

end Expr

namespace Evaluation

theorem eval_of_sameScope (rows : List Value) {expr : Expr} {declared : Declared}
    {scope scope' : Scope} (inScope : expr.ScopedIn declared)
    (same : ∀ param : Parameter, param.VisibleIn declared →
      scope.lookup param.name = scope'.lookup param.name) :
    Agree (eval rows scope expr) (eval rows scope' expr) :=
  (resembles_self rows True expr fun use isUse =>
    same use.param (Expr.ScopedIn.visible expr inScope use isUse)).value.related trivial

theorem eval_closed (rows : List Value) {param : Parameter} {body : Expr}
    (closed : body.ScopedIn [param]) (item : Value) (scope : Scope) :
    Agree (eval rows ((param.name, item) :: scope) body) (eval rows [(param.name, item)] body) := by
  apply eval_of_sameScope rows closed
  intro other visible
  cases List.mem_singleton.1 (Parameter.mem_of_visibleIn visible)
  simp

end Evaluation

end QueryProjection
