import Mathlib.Algebra.Ring.Nat
import QueryProjection.Expr.ReservedNames
import QueryProjection.Proofs.Evaluation.Scoping

set_option autoImplicit false

namespace QueryProjection.Expr

theorem mem_subterms_self (expr : Expr) : expr ∈ expr.subterms := by
  cases expr <;> simp [subterms]

theorem mem_allSubterms {expr : Expr} {exprs : List Expr} :
    expr ∈ allSubterms exprs ↔ ∃ other ∈ exprs, expr ∈ other.subterms := by
  induction exprs with
  | nil => simp [allSubterms]
  | cons other rest ih => simp [allSubterms, ih]

theorem mem_bindingSubterms {expr : Expr} {bindings : List (String × Expr)} :
    expr ∈ bindingSubterms bindings ↔ ∃ binding ∈ bindings, expr ∈ binding.2.subterms := by
  induction bindings with
  | nil => simp [bindingSubterms]
  | cons binding rest ih => simp [bindingSubterms, ih]

mutual

theorem not_mem_subterms (expr : Expr) (free : expr.ConstructFree) (ty : DataType)
    (bindings : List (String × Expr)) : .construct ty bindings ∉ expr.subterms := by
  match expr with
  | .source _ | .parameter _ | .constant _ _ => simp [subterms]
  | .member target _ _ => simpa [subterms] using not_mem_subterms target free ty bindings
  | .construct _ _ => exact free.elim
  | .lambda _ body => simpa [subterms] using not_mem_subterms body free ty bindings
  | .call _ arguments _ => simpa [subterms] using not_mem_allSubterms arguments free ty bindings
  | .binary _ left right =>
    have first := not_mem_subterms left free.1 ty bindings
    have second := not_mem_subterms right free.2 ty bindings
    simp [subterms, first, second]
  | .negation operand => simpa [subterms] using not_mem_subterms operand free ty bindings
  | .conditional test whenTrue whenFalse _ =>
    have first := not_mem_subterms test free.1 ty bindings
    have second := not_mem_subterms whenTrue free.2.1 ty bindings
    have third := not_mem_subterms whenFalse free.2.2 ty bindings
    simp [subterms, first, second, third]
  | .convert operand _ => simpa [subterms] using not_mem_subterms operand free ty bindings
  | .function _ arguments => simpa [subterms] using not_mem_allSubterms arguments free ty bindings

theorem not_mem_allSubterms (exprs : List Expr) (free : AllConstructFree exprs) (ty : DataType)
    (bindings : List (String × Expr)) : .construct ty bindings ∉ allSubterms exprs := by
  match exprs with
  | [] => simp [allSubterms]
  | expr :: rest =>
    have first := not_mem_subterms expr free.1 ty bindings
    have later := not_mem_allSubterms rest free.2 ty bindings
    simp [allSubterms, first, later]

end

mutual

theorem subterms_rename (names : Renaming) (expr : Expr) :
    (rename names expr).subterms = expr.subterms.map (rename names) := by
  match expr with
  | .source _ | .parameter _ | .constant _ _ => simp [rename, subterms]
  | .member target _ _ => simp [rename, subterms, subterms_rename names target]
  | .construct _ bindings => simp [rename, subterms, bindingSubterms_rename names bindings]
  | .lambda _ body => simp [rename, subterms, subterms_rename names body]
  | .call _ arguments _ => simp [rename, subterms, allSubterms_rename names arguments]
  | .binary _ left right =>
    simp [rename, subterms, subterms_rename names left, subterms_rename names right]
  | .negation operand => simp [rename, subterms, subterms_rename names operand]
  | .conditional test whenTrue whenFalse _ =>
    simp [rename, subterms, subterms_rename names test, subterms_rename names whenTrue,
      subterms_rename names whenFalse]
  | .convert operand _ => simp [rename, subterms, subterms_rename names operand]
  | .function _ arguments => simp [rename, subterms, allSubterms_rename names arguments]

theorem allSubterms_rename (names : Renaming) (exprs : List Expr) :
    allSubterms (renameAll names exprs) = (allSubterms exprs).map (rename names) := by
  match exprs with
  | [] => rfl
  | expr :: rest =>
    simp [renameAll, allSubterms, subterms_rename names expr, allSubterms_rename names rest]

theorem bindingSubterms_rename (names : Renaming) (bindings : List (String × Expr)) :
    bindingSubterms (renameBindings names bindings) =
      (bindingSubterms bindings).map (rename names) := by
  match bindings with
  | [] => rfl
  | (_, expr) :: rest =>
    simp [renameBindings, bindingSubterms, subterms_rename names expr,
      bindingSubterms_rename names rest]

end

section Calls

variable (method : SequenceMethod)

theorem countP_allSubterms (exprs : List Expr) :
    (allSubterms exprs).countP (isCallOf method) = (exprs.map fun expr => expr.callsTo method).sum := by
  induction exprs with
  | nil => rfl
  | cons expr rest ih => simp [allSubterms, ih, callsTo]

theorem countP_bindingSubterms (bindings : List (String × Expr)) :
    (bindingSubterms bindings).countP (isCallOf method) =
      (bindings.map fun binding => binding.2.callsTo method).sum := by
  induction bindings with
  | nil => rfl
  | cons binding rest ih => simp [bindingSubterms, ih, callsTo]

@[simp] theorem callsTo_source (ty : DataType) : (source ty).callsTo method = 0 := rfl

@[simp] theorem callsTo_parameter (param : Parameter) : (parameter param).callsTo method = 0 := rfl

@[simp] theorem callsTo_constant (value : Value) (ty : DataType) :
    (constant value ty).callsTo method = 0 := rfl

@[simp] theorem callsTo_member (target : Expr) (name : String) (ty : DataType) :
    (member target name ty).callsTo method = target.callsTo method := by
  simp [callsTo, subterms, isCallOf]

@[simp] theorem callsTo_construct (ty : DataType) (bindings : List (String × Expr)) :
    (construct ty bindings).callsTo method =
      (bindings.map fun binding => binding.2.callsTo method).sum := by
  rw [← countP_bindingSubterms]
  simp [callsTo, subterms, isCallOf]

@[simp] theorem callsTo_lambda (param : Parameter) (body : Expr) :
    (lambda param body).callsTo method = body.callsTo method := by
  simp [callsTo, subterms, isCallOf]

@[simp] theorem callsTo_call (other : SequenceMethod) (arguments : List Expr) (ty : DataType) :
    (call other arguments ty).callsTo method =
      (arguments.map fun argument => argument.callsTo method).sum + [other].count method := by
  rw [← countP_allSubterms]
  simp [callsTo, subterms, isCallOf, List.countP_cons, List.count_singleton]

@[simp] theorem callsTo_binary (operator : BinaryOperator) (left right : Expr) :
    (binary operator left right).callsTo method = left.callsTo method + right.callsTo method := by
  simp [callsTo, subterms, isCallOf]

@[simp] theorem callsTo_negation (operand : Expr) :
    (negation operand).callsTo method = operand.callsTo method := by
  simp [callsTo, subterms, isCallOf]

@[simp] theorem callsTo_conditional (test whenTrue whenFalse : Expr) (ty : DataType) :
    (conditional test whenTrue whenFalse ty).callsTo method =
      test.callsTo method + whenTrue.callsTo method + whenFalse.callsTo method := by
  simp [callsTo, subterms, isCallOf, Nat.add_assoc]

@[simp] theorem callsTo_convert (operand : Expr) (ty : DataType) :
    (convert operand ty).callsTo method = operand.callsTo method := by
  simp [callsTo, subterms, isCallOf]

@[simp] theorem callsTo_function (called : TextFunction) (arguments : List Expr) :
    (function called arguments).callsTo method =
      (arguments.map fun argument => argument.callsTo method).sum := by
  rw [← countP_allSubterms]
  simp [callsTo, subterms, isCallOf]

theorem callsTo_rename (names : Renaming) (expr : Expr) :
    (rename names expr).callsTo method = expr.callsTo method := by
  have kept : isCallOf method ∘ rename names = isCallOf method := by
    funext node
    cases node <;> rfl
  rw [callsTo, subterms_rename, List.countP_map, kept, callsTo]

end Calls

def CallFree (expr : Expr) : Prop :=
  ∀ method, expr.callsTo method = 0

section CallFree

@[simp] theorem callFree_leaf (ty : DataType) (param : Parameter) (value : Value) :
    (source ty).CallFree ∧ (parameter param).CallFree ∧ (constant value ty).CallFree := by
  simp [CallFree]

@[simp] theorem callFree_member {target : Expr} {name : String} {ty : DataType} :
    (member target name ty).CallFree ↔ target.CallFree := by
  simp [CallFree]

@[simp] theorem callFree_lambda {param : Parameter} {body : Expr} :
    (lambda param body).CallFree ↔ body.CallFree := by
  simp [CallFree]

@[simp] theorem not_callFree_call {called : SequenceMethod} {arguments : List Expr} {ty : DataType} :
    ¬ (call called arguments ty).CallFree := by
  intro free
  simpa using free called

@[simp] theorem callFree_binary {operator : BinaryOperator} {left right : Expr} :
    (binary operator left right).CallFree ↔ left.CallFree ∧ right.CallFree := by
  simp [CallFree, forall_and]

@[simp] theorem callFree_negation {operand : Expr} :
    (negation operand).CallFree ↔ operand.CallFree := by
  simp [CallFree]

@[simp] theorem callFree_conditional {test whenTrue whenFalse : Expr} {ty : DataType} :
    (conditional test whenTrue whenFalse ty).CallFree ↔
      test.CallFree ∧ whenTrue.CallFree ∧ whenFalse.CallFree := by
  simp [CallFree, forall_and, and_assoc]

@[simp] theorem callFree_convert {operand : Expr} {ty : DataType} :
    (convert operand ty).CallFree ↔ operand.CallFree := by
  simp [CallFree]

@[simp] theorem callFree_function {called : TextFunction} {arguments : List Expr} :
    (function called arguments).CallFree ↔ ∀ argument ∈ arguments, argument.CallFree := by
  simp only [CallFree, callsTo_function, List.sum_eq_zero_iff_forall_eq_nat, List.forall_mem_map]
  exact ⟨fun free argument member method => free method argument member,
    fun free method argument member => free argument member method⟩

theorem stable_callFree : StableUnderReading CallFree where
  constant _ _ _ := rfl
  member _ _ _ free := callFree_member.2 free
  binary _ _ _ first second := callFree_binary.2 ⟨first, second⟩
  conditional _ _ _ _ first second third := callFree_conditional.2 ⟨first, second, third⟩

end CallFree

end QueryProjection.Expr
