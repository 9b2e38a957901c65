import QueryProjection.Proofs.Evaluation.Mirroring
import QueryProjection.Proofs.Evaluation.Renaming

set_option autoImplicit false

namespace QueryProjection

open Outcome

/-- The replacement can stand for the target: every use of the target's name is of the target, and no
lambda around one declares a name that the replacement uses. -/
structure Expr.Admits (expr : Expr) (target : Parameter) (replacement : Expr) : Prop where
  typed : ∀ use ∈ expr.freeUses, use.param.name = target.name → use.param = target
  declared : ∀ param ∈ expr.lambdaParameters, param.name = target.name → param = target
  uncaught : ∀ use ∈ expr.freeUses, use.param.name = target.name →
    ∀ param ∈ use.around, param.name ∉ replacement.freeNames

/-- No call refines the parameter itself as an order. -/
def Expr.NeverRefines (expr : Expr) (target : Parameter) : Prop :=
  ∀ use ∈ expr.freeUses, use.param = target → use.refined = false

instance (expr : Expr) (target : Parameter) (replacement : Expr) :
    Decidable (expr.Admits target replacement) :=
  decidable_of_iff
    ((∀ use ∈ expr.freeUses, use.param.name = target.name → use.param = target) ∧
      (∀ param ∈ expr.lambdaParameters, param.name = target.name → param = target) ∧
      ∀ use ∈ expr.freeUses, use.param.name = target.name →
        ∀ param ∈ use.around, param.name ∉ replacement.freeNames)
    ⟨fun ⟨typed, declared, uncaught⟩ => ⟨typed, declared, uncaught⟩,
      fun ⟨typed, declared, uncaught⟩ => ⟨typed, declared, uncaught⟩⟩

instance (expr : Expr) (target : Parameter) : Decidable (expr.NeverRefines target) :=
  inferInstanceAs (Decidable (∀ use ∈ expr.freeUses, use.param = target → use.refined = false))

namespace Evaluation

variable {rows : List Value} {exact : Prop} {target : Parameter} {replacement : Expr}
  {outer : Scope} {value : Value} {scope scope' : Scope}

inductive Replaces (exact : Prop) (target : Parameter) (replacement : Expr) (outer : Scope)
    (value : Value) (scope scope' : Scope) (use : FreeUse) : Prop where
  | kept (apart : use.param.name ≠ target.name)
      (same : scope.lookup use.param.name = scope'.lookup use.param.name)
  | replaced (isTarget : use.param = target) (bound : scope.lookup target.name = some value)
      (sameOutside : ∀ name ∈ replacement.freeNames, outer.lookup name = scope'.lookup name)
      (uncaught : ∀ param ∈ use.around, param.name ∉ replacement.freeNames)
      (unrefined : exact → replacement.isOrderingCall = true → use.refined = false)

theorem Replaces.push {param : Parameter} {use : FreeUse} (apart : param.name ≠ target.name)
    (replaces : use.param.name ≠ param.name →
      Replaces exact target replacement outer value scope scope' (use.below param)) (item : Value) :
    Replaces exact target replacement outer value ((param.name, item) :: scope)
      ((param.name, item) :: scope') use := by
  by_cases here : use.param.name = param.name
  · exact .kept (here ▸ apart) (by simp [here])
  · cases replaces here with
    | kept other same =>
      refine .kept other ?_
      rw [List.lookup_cons, List.lookup_cons, beq_false_of_ne here]
      exact same
    | replaced isTarget bound sameOutside uncaught unrefined =>
      obtain ⟨uncaughtHere, uncaughtInside⟩ := List.forall_mem_cons.1 uncaught
      refine .replaced isTarget ?_ (fun name isName => ?_) uncaughtInside unrefined
      · rw [List.lookup_cons, beq_false_of_ne (Ne.symm apart)]
        exact bound
      · have other : name ≠ param.name := fun same => uncaughtHere (same ▸ isName)
        rw [List.lookup_cons, beq_false_of_ne other]
        exact sameOutside name isName

theorem Replaces.same_of_apart {use : FreeUse} (apart : use.param.name ≠ target.name)
    (replaces : Replaces exact target replacement outer value scope scope' use) :
    scope.lookup use.param.name = scope'.lookup use.param.name := by
  cases replaces with
  | kept _ same => exact same
  | replaced isTarget => exact absurd (congrArg Parameter.name isTarget) apart

theorem isOrderingCall_substitute {expr : Expr}
    (ordered : (Expr.substitute target replacement expr).isOrderingCall = true) :
    expr.isOrderingCall = true ∨ expr = .parameter target ∧ replacement.isOrderingCall = true := by
  cases expr with
  | call => exact .inl ordered
  | parameter param =>
    simp only [Expr.substitute] at ordered
    split at ordered
    next isTarget => exact .inr ⟨congrArg Expr.parameter isTarget, ordered⟩
    next => simp [Expr.isOrderingCall] at ordered
  | lambda =>
    simp only [Expr.substitute] at ordered
    split at ordered <;> simp [Expr.isOrderingCall] at ordered
  | source | constant | member | construct | binary | negation | conditional | convert | function =>
    simp [Expr.substitute, Expr.isOrderingCall] at ordered

theorem keepsOrder_substitute {method : SequenceMethod} {arguments : List Expr} {ty : DataType}
    (replaces : ∀ use ∈ (Expr.call method arguments ty).freeUses,
      Replaces exact target replacement outer value scope scope' use) (isExact : exact) :
    KeepsOrder method arguments (Expr.substituteAll target replacement arguments) := by
  intro refines sequence isFirst sequence' isFirst' ordered
  cases arguments with
  | nil => cases isFirst
  | cons first rest =>
    cases isFirst
    cases isFirst'
    rcases isOrderingCall_substitute ordered with seen | ⟨rfl, orders⟩
    · exact seen
    · -- The target would be refined here, which an exact relation rules out.
      have isUse : ⟨target, [], true⟩ ∈ (Expr.call method (.parameter target :: rest) ty).freeUses :=
        List.mem_append_left _ (Expr.mem_refinedUses.2 ⟨target, rest, rfl, refines, rfl⟩)
      cases replaces _ isUse with
      | kept apart => exact absurd rfl apart
      | replaced _ _ _ _ unrefined => exact absurd (unrefined isExact orders) (by simp)

theorem resembles_replacement (evaluates : eval rows outer replacement = .ok value)
    (bound : scope.lookup target.name = some value)
    (sameOutside : ∀ name ∈ replacement.freeNames, outer.lookup name = scope'.lookup name) :
    Resembles rows exact scope scope' (.parameter target) replacement := by
  have found : eval rows scope (.parameter target) = .ok value := by simp only [eval, bound]
  have moved : eval rows scope' replacement = .ok value :=
    (resembles_self rows exact replacement fun use isUse =>
      sameOutside _ (List.mem_map_of_mem isUse)).value.eq_ok evaluates
  have noLambda : replacement.isLambda = false := by
    cases replacement with
    | lambda => cases evaluates
    | _ => rfl
  exact .of_value (found ▸ moved ▸ .refl _) rfl noLambda rfl

mutual

theorem resembles_substitute (evaluates : eval rows outer replacement = .ok value) (expr : Expr)
    {scope scope' : Scope}
    (declared : ∀ param ∈ expr.lambdaParameters, param.name = target.name → param = target)
    (replaces : ∀ use ∈ expr.freeUses,
      Replaces exact target replacement outer value scope scope' use) :
    Resembles rows exact scope scope' expr (Expr.substitute target replacement expr) := by
  match expr with
  | .source ty => exact .source ty ty
  | .constant held ty => exact .constant held ty ty
  | .parameter param =>
    simp only [Expr.substitute]
    cases replaces _ (List.mem_singleton_self _) with
    | kept apart same =>
      rw [if_neg fun isTarget => apart (congrArg Parameter.name isTarget)]
      exact .parameter same
    | replaced isTarget bound sameOutside =>
      cases isTarget
      rw [if_pos rfl]
      exact resembles_replacement evaluates bound sameOutside
  | .member owner name ty => exact .member (resembles_substitute evaluates owner declared replaces) name ty ty
  | .construct ty bindings => exact .construct ty (bindings_resemble_substitute evaluates bindings declared replaces)
  | .lambda param body =>
    rw [Expr.lambdaParameters_lambda, List.forall_mem_cons] at declared
    simp only [Expr.substitute]
    split
    next isTarget =>
      -- The lambda declares the target itself, so nothing inside is a use of the outer one.
      refine resembles_self rows exact (.lambda param body) fun use isUse => ?_
      have apart := Expr.apart_of_mem_freeUses_lambda isUse
      exact (replaces use isUse).same_of_apart (isTarget ▸ apart)
    next other =>
      have apart : param.name ≠ target.name := fun same => other (declared.1 same)
      refine .lambda fun item => resembles_substitute evaluates body declared.2 fun use isUse => ?_
      exact .push apart (fun below => replaces _ (Expr.mem_freeUses_lambda isUse below)) item
  | .call method arguments ty =>
    refine .call method ty ty (all_resemble_substitute evaluates arguments declared fun use isUse => ?_)
      (keepsOrder_substitute replaces)
    exact replaces use (Expr.allFreeUses_subset method arguments ty isUse)
  | .binary operator left right =>
    rw [Expr.lambdaParameters_binary, List.forall_mem_append] at declared
    have uses := List.forall_mem_append.1 replaces
    exact .binary operator (resembles_substitute evaluates left declared.1 uses.1)
      (resembles_substitute evaluates right declared.2 uses.2)
  | .negation operand => exact .negation (resembles_substitute evaluates operand declared replaces)
  | .conditional test whenTrue whenFalse ty =>
    rw [Expr.lambdaParameters_conditional, List.forall_mem_append, List.forall_mem_append] at declared
    have uses := List.forall_mem_append.1 replaces
    have branches := List.forall_mem_append.1 uses.2
    exact .conditional ty ty (resembles_substitute evaluates test declared.1.1 uses.1)
      (resembles_substitute evaluates whenTrue declared.1.2 branches.1)
      (resembles_substitute evaluates whenFalse declared.2 branches.2)
  | .convert operand ty => exact .convert (resembles_substitute evaluates operand declared replaces) ty
  | .function called arguments =>
    exact .textFunction called (all_resemble_substitute evaluates arguments declared replaces)

theorem all_resemble_substitute (evaluates : eval rows outer replacement = .ok value)
    (exprs : List Expr) {scope scope' : Scope}
    (declared : ∀ param ∈ Expr.allLambdaParameters exprs, param.name = target.name → param = target)
    (replaces : ∀ use ∈ Expr.allFreeUses exprs,
      Replaces exact target replacement outer value scope scope' use) :
    List.Forall₂ (Resembles rows exact scope scope') exprs
      (Expr.substituteAll target replacement exprs) := by
  match exprs with
  | [] => exact .nil
  | expr :: rest =>
    rw [Expr.allLambdaParameters_cons, List.forall_mem_append] at declared
    have uses := List.forall_mem_append.1 replaces
    exact .cons (resembles_substitute evaluates expr declared.1 uses.1)
      (all_resemble_substitute evaluates rest declared.2 uses.2)

theorem bindings_resemble_substitute (evaluates : eval rows outer replacement = .ok value)
    (bindings : List (String × Expr)) {scope scope' : Scope}
    (declared : ∀ param ∈ Expr.bindingLambdaParameters bindings,
      param.name = target.name → param = target)
    (replaces : ∀ use ∈ Expr.bindingFreeUses bindings,
      Replaces exact target replacement outer value scope scope' use) :
    BindingsResemble rows exact scope scope' bindings
      (Expr.substituteBindings target replacement bindings) := by
  match bindings with
  | [] => exact .nil
  | (_, expr) :: rest =>
    rw [Expr.bindingLambdaParameters_cons, List.forall_mem_append] at declared
    have uses := List.forall_mem_append.1 replaces
    exact .cons ⟨rfl, resembles_substitute evaluates expr declared.1 uses.1⟩
      (bindings_resemble_substitute evaluates rest declared.2 uses.2)

end

theorem follows_substitute {expr : Expr} (admits : expr.Admits target replacement)
    (evaluates : eval rows scope replacement = .ok value)
    (unrefined : exact → replacement.isOrderingCall = true → expr.NeverRefines target) :
    Follows exact Eq (eval rows ((target.name, value) :: scope) expr)
      (eval rows scope (Expr.substitute target replacement expr)) := by
  refine (resembles_substitute evaluates expr admits.declared fun use isUse => ?_).value
  by_cases same : use.param.name = target.name
  · have isTarget := admits.typed use isUse same
    refine .replaced isTarget (by simp) (fun name _ => rfl) (admits.uncaught use isUse same) ?_
    exact fun isExact orders => unrefined isExact orders use isUse isTarget
  · refine .kept same ?_
    rw [List.lookup_cons, beq_false_of_ne same]

theorem eval_substitute_of_eq_ok {expr : Expr} (admits : expr.Admits target replacement)
    (evaluates : eval rows scope replacement = .ok value) {result : Value}
    (isResult : eval rows ((target.name, value) :: scope) expr = .ok result) :
    eval rows scope (Expr.substitute target replacement expr) = .ok result := by
  have follows : Follows False Eq _ _ := follows_substitute admits evaluates False.elim
  exact follows.eq_ok isResult

theorem eval_substitute_agree {expr : Expr} (admits : expr.Admits target replacement)
    (evaluates : eval rows scope replacement = .ok value)
    (unrefined : replacement.isOrderingCall = true → expr.NeverRefines target) :
    Agree (eval rows ((target.name, value) :: scope) expr)
      (eval rows scope (Expr.substitute target replacement expr)) :=
  (follows_substitute admits evaluates fun _ => unrefined).related trivial

end Evaluation

end QueryProjection
