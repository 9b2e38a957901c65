import QueryProjection.Proofs.Evaluation.Agreement
import QueryProjection.Proofs.Expr.FreeUses

set_option autoImplicit false

namespace QueryProjection

open Outcome

def Expr.isLambda : Expr → Bool
  | .lambda _ _ => true
  | _ => false

def Expr.isOrderingCall : Expr → Bool
  | .call method _ _ => method.isOrdering
  | _ => false

namespace Evaluation

def functionIn (rows : List Value) (scope : Scope) : Expr → Option (Value → Outcome Value)
  | .lambda param body => some fun item => eval rows ((param.name, item) :: scope) body
  | _ => none

def orderIn (rows : List Value) (scope : Scope) (whole : Expr) :
    Expr → Outcome (List SortKey × List Value)
  | .call inner arguments _ =>
      if inner.isOrdering then evalOrder rows scope whole inner arguments
      else fault ("ThenBy without OrderBy in " ++ whole.toText)
  | _ => fault (whole.toText ++ " has no OrderBy")

section Views

variable (rows : List Value) (scope : Scope)

theorem functionIn_eq_none {expr : Expr} (noLambda : expr.isLambda = false) :
    functionIn rows scope expr = none := by
  cases expr <;> first | rfl | simp [Expr.isLambda] at noLambda

theorem orderIn_eq_error {expr : Expr} (unordered : expr.isOrderingCall = false) (whole : Expr) :
    ∃ cause, orderIn rows scope whole expr = .error cause := by
  cases expr <;> first
    | exact ⟨_, rfl⟩
    | exact ⟨_, if_neg (by simpa [Expr.isOrderingCall] using unordered)⟩

theorem evalCall_filter (sequence : Expr) (rest : List Expr) :
    evalCall rows scope .filter (sequence :: rest) = (do
      let items ← itemsFor .filter (← eval rows scope sequence)
      match rest.head?.bind (functionIn rows scope) with
      | some predicate => return .list (← keepWhere predicate items)
      | none => lambdaExpected .filter) := by
  cases rest with
  | nil => rfl
  | cons expr later => cases expr <;> rfl

theorem evalCall_select (sequence : Expr) (rest : List Expr) :
    evalCall rows scope .select (sequence :: rest) = (do
      let items ← itemsFor .select (← eval rows scope sequence)
      match rest.head?.bind (functionIn rows scope) with
      | some selector => return .list (← mapItems selector items)
      | none => lambdaExpected .select) := by
  cases rest with
  | nil => rfl
  | cons expr later => cases expr <;> rfl

theorem evalOrder_eq (whole : Expr) (method : SequenceMethod) (sequence : Expr) (rest : List Expr) :
    evalOrder rows scope whole method (sequence :: rest) =
      match rest.head?.bind (functionIn rows scope) with
      | some key =>
          if method.startsOrder then do
            return ([⟨key, method.isDescending⟩], ← itemsOf sequence (← eval rows scope sequence))
          else do
            let (levels, items) ← orderIn rows scope whole sequence
            return (levels ++ [⟨key, method.isDescending⟩], items)
      | none => lambdaExpected method := by
  match rest with
  | [] => rfl
  | .lambda param body :: _ =>
    cases sequence with
    | call inner arguments ty =>
      cases ordering : inner.isOrdering <;> simp [evalOrder, orderIn, functionIn, ordering, fault]
    | source _ | parameter _ | constant _ _ | member _ _ _ | construct _ _ | lambda _ _
    | binary _ _ _ | negation _ | conditional _ _ _ _ | convert _ _ | function _ _ => rfl
  | .source _ :: _ | .parameter _ :: _ | .constant _ _ :: _ | .member _ _ _ :: _
  | .construct _ _ :: _ | .call _ _ _ :: _ | .binary _ _ _ :: _ | .negation _ :: _
  | .conditional _ _ _ _ :: _ | .convert _ _ :: _ | .function _ _ :: _ => rfl

end Views

def OrderFollows (exact : Prop) (order order' : List SortKey × List Value) : Prop :=
  List.Forall₂ (SortKey.FollowsOn exact Eq) order.1 order'.1 ∧ order.2 = order'.2

structure Resembles (rows : List Value) (exact : Prop) (scope scope' : Scope) (expr expr' : Expr) :
    Prop where
  value : Follows exact Eq (eval rows scope expr) (eval rows scope' expr')
  function : Option.Rel (FollowsOn exact Eq)
    (functionIn rows scope expr) (functionIn rows scope' expr')
  order : (exact → expr'.isOrderingCall = true → expr.isOrderingCall = true) → ∀ whole whole',
    Follows exact (OrderFollows exact) (orderIn rows scope whole expr)
      (orderIn rows scope' whole' expr')

abbrev BindingsResemble (rows : List Value) (exact : Prop) (scope scope' : Scope) :
    List (String × Expr) → List (String × Expr) → Prop :=
  List.Forall₂ fun binding binding' =>
    binding.1 = binding'.1 ∧ Resembles rows exact scope scope' binding.2 binding'.2

def KeepsOrder (method : SequenceMethod) (arguments arguments' : List Expr) : Prop :=
  method.refinesOrder = true → ∀ sequence ∈ arguments.head?, ∀ sequence' ∈ arguments'.head?,
    sequence'.isOrderingCall = true → sequence.isOrderingCall = true

variable {rows : List Value} {exact : Prop} {scope scope' : Scope} {expr expr' : Expr}

namespace Resembles

theorem of_value (value : Follows exact Eq (eval rows scope expr) (eval rows scope' expr'))
    (noLambda : expr.isLambda = false) (noLambda' : expr'.isLambda = false)
    (unordered : expr.isOrderingCall = false) : Resembles rows exact scope scope' expr expr' where
  value := value
  function := by
    rw [functionIn_eq_none rows scope noLambda, functionIn_eq_none rows scope' noLambda']
    exact .none
  order keeps whole whole' := by
    obtain ⟨cause, failed⟩ := orderIn_eq_error rows scope unordered whole
    rw [failed]
    refine .of_error fun isExact => orderIn_eq_error rows scope' ?_ whole'
    cases ordered : expr'.isOrderingCall with
    | false => rfl
    | true => exact absurd (keeps isExact ordered) (by simp [unordered])

theorem lambda {param param' : Parameter} {body body' : Expr}
    (bodies : ∀ item, Resembles rows exact ((param.name, item) :: scope)
      ((param'.name, item) :: scope') body body') :
    Resembles rows exact scope scope' (.lambda param body) (.lambda param' body') where
  value := .failed _ _
  function := .some fun item _ same => same ▸ (bodies item).value
  order _ _ _ := .failed _ _

end Resembles

theorem itemsOf_agree (whole whole' : Expr) (value : Value) :
    Agree (itemsOf whole value) (itemsOf whole' value) := by
  unfold itemsOf
  split
  next => exact Agree.refl _
  next => exact .failed _ _

section Arguments

variable {exprs exprs' : List Expr}
  (alike : List.Forall₂ (Resembles rows exact scope scope') exprs exprs')

include alike

theorem evalAll_follows : Follows exact Eq (evalAll rows scope exprs) (evalAll rows scope' exprs') := by
  induction alike with
  | nil => exact .refl _
  | cons first _ ih =>
    simp only [evalAll]
    exact first.value.bind_same fun value => ih.bind_same fun values => .refl _

theorem functionIn_head :
    Option.Rel (FollowsOn exact Eq)
      (exprs.head?.bind (functionIn rows scope)) (exprs'.head?.bind (functionIn rows scope')) := by
  cases alike with
  | nil => exact .none
  | cons first _ => exact first.function

theorem evalCall_follows (method : SequenceMethod) :
    Follows exact Eq (evalCall rows scope method exprs) (evalCall rows scope' method exprs') := by
  cases alike with
  | nil => exact .refl _
  | @cons sequence sequence' rest rest' first later =>
    cases method with
    | filter =>
      -- Only a lambda is a function; both sides have one or neither does.
      simp only [evalCall_filter]
      refine first.value.bind_same fun value => (Follows.refl _).bind_same fun items => ?_
      have predicates := functionIn_head later
      generalize rest.head?.bind (functionIn rows scope) = found at predicates ⊢
      generalize rest'.head?.bind (functionIn rows scope') = found' at predicates ⊢
      cases predicates with
      | none => exact .refl _
      | some follow =>
        exact (keepWhere_follows follow (List.forall₂_refl items)).bind fun kept kept' same =>
          .ok (congrArg Value.list (List.forall₂_eq_eq_eq ▸ same))
    | select =>
      simp only [evalCall_select]
      refine first.value.bind_same fun value => (Follows.refl _).bind_same fun items => ?_
      have selectors := functionIn_head later
      generalize rest.head?.bind (functionIn rows scope) = found at selectors ⊢
      generalize rest'.head?.bind (functionIn rows scope') = found' at selectors ⊢
      cases selectors with
      | none => exact .refl _
      | some follow =>
        exact (mapItems_follows follow (List.forall₂_refl items)).bind_same fun values => .refl _
    | skip | take =>
      rw [evalCall, evalCall]
      refine first.value.bind_same fun value => (Follows.refl _).bind_same fun items => ?_
      cases later with
      | nil => exact .refl _
      | cons number _ =>
        refine number.value.bind_same fun counted => ?_
        exact (Follows.refl _).bind_same fun count => .refl _
    | orderBy | orderByDescending | thenBy | thenByDescending | toList | toArray | asQueryable =>
      simp only [evalCall]
      exact first.value.bind_same fun value => (Follows.refl _).bind_same fun items => .refl _

theorem evalOrder_follows {method : SequenceMethod} (orders : method.isOrdering = true)
    (keeps : exact → KeepsOrder method exprs exprs') (whole whole' : Expr) :
    Follows exact (OrderFollows exact) (evalOrder rows scope whole method exprs)
      (evalOrder rows scope' whole' method exprs') := by
  cases alike with
  | nil => exact .failed _ _
  | @cons sequence sequence' rest rest' first later =>
    rw [evalOrder_eq, evalOrder_eq]
    have functions := functionIn_head later
    generalize rest.head?.bind (functionIn rows scope) = found at functions ⊢
    generalize rest'.head?.bind (functionIn rows scope') = found' at functions ⊢
    cases functions with
    | none => exact .failed _ _
    | @some key key' follow =>
      have level : SortKey.FollowsOn exact Eq ⟨key, method.isDescending⟩ ⟨key', method.isDescending⟩ :=
        ⟨rfl, follow⟩
      dsimp only
      split
      next starts =>
        refine first.value.bind fun value _ same => ?_
        subst same
        refine (itemsOf_agree sequence sequence' value).follows.bind fun items items' same => ?_
        exact .ok ⟨.cons level .nil, same⟩
      next refines =>
        -- A refined order has to go on from an order on both sides; a sort of its own would start
        -- anew.
        have kept (isExact : exact) : sequence'.isOrderingCall = true → sequence.isOrderingCall = true :=
          keeps isExact (by simp [SequenceMethod.refinesOrder, orders, refines]) sequence rfl sequence' rfl
        refine (first.order kept whole whole').bind fun order order' orderFollows => ?_
        exact .ok ⟨List.rel_append orderFollows.1 (.cons level .nil), orderFollows.2⟩

end Arguments

theorem evalBindings_follows {bindings bindings' : List (String × Expr)}
    (alike : BindingsResemble rows exact scope scope' bindings bindings') :
    Follows exact Eq (evalBindings rows scope bindings) (evalBindings rows scope' bindings') := by
  induction alike with
  | nil => exact .refl _
  | @cons binding binding' _ _ first _ ih =>
    obtain ⟨name, expr⟩ := binding
    obtain ⟨_, expr'⟩ := binding'
    obtain ⟨rfl, first⟩ := first
    simp only [evalBindings]
    exact first.value.bind_same fun value => ih.bind_same fun values => .refl _

namespace Resembles

theorem member (target : Resembles rows exact scope scope' expr expr') (name : String)
    (ty ty' : DataType) :
    Resembles rows exact scope scope' (.member expr name ty) (.member expr' name ty') :=
  .of_value (target.value.bind_same fun value => (readMember_agree value name _ _).follows) rfl rfl rfl

theorem construct {bindings bindings' : List (String × Expr)} (ty : DataType)
    (alike : BindingsResemble rows exact scope scope' bindings bindings') :
    Resembles rows exact scope scope' (.construct ty bindings) (.construct ty bindings') :=
  .of_value ((evalBindings_follows alike).bind_same fun _ => .refl _) rfl rfl rfl

theorem call {arguments arguments' : List Expr} (method : SequenceMethod) (ty ty' : DataType)
    (alike : List.Forall₂ (Resembles rows exact scope scope') arguments arguments')
    (keeps : exact → KeepsOrder method arguments arguments') :
    Resembles rows exact scope scope' (.call method arguments ty) (.call method arguments' ty') where
  value := by
    simp only [eval]
    split
    next orders =>
      refine (evalOrder_follows alike orders keeps _ _).bind fun order order' follow => ?_
      rw [follow.2]
      exact sortItems_follows follow.1 order'.2
    next => exact evalCall_follows alike method
  function := .none
  order _ whole whole' := by
    simp only [orderIn]
    split
    next orders => exact evalOrder_follows alike orders keeps whole whole'
    next => exact .failed _ _

theorem binary {left left' right right' : Expr} (operator : BinaryOperator)
    (first : Resembles rows exact scope scope' left left')
    (second : Resembles rows exact scope scope' right right') :
    Resembles rows exact scope scope' (.binary operator left right) (.binary operator left' right') :=
  .of_value (eval_binary_follows operator first.value second.value) rfl rfl rfl

theorem negation (operand : Resembles rows exact scope scope' expr expr') :
    Resembles rows exact scope scope' (.negation expr) (.negation expr') :=
  .of_value (operand.value.bind_same fun _ => .refl _) rfl rfl rfl

theorem conditional {test test' whenTrue whenTrue' whenFalse whenFalse' : Expr} (ty ty' : DataType)
    (first : Resembles rows exact scope scope' test test')
    (second : Resembles rows exact scope scope' whenTrue whenTrue')
    (third : Resembles rows exact scope scope' whenFalse whenFalse') :
    Resembles rows exact scope scope' (.conditional test whenTrue whenFalse ty)
      (.conditional test' whenTrue' whenFalse' ty') :=
  .of_value (eval_conditional_follows ty ty' first.value second.value third.value) rfl rfl rfl

theorem convert (operand : Resembles rows exact scope scope' expr expr') (ty : DataType) :
    Resembles rows exact scope scope' (.convert expr ty) (.convert expr' ty) :=
  .of_value (operand.value.bind_same fun _ => .refl _) rfl rfl rfl

theorem textFunction {arguments arguments' : List Expr} (called : TextFunction)
    (alike : List.Forall₂ (Resembles rows exact scope scope') arguments arguments') :
    Resembles rows exact scope scope' (.function called arguments) (.function called arguments') :=
  .of_value ((evalAll_follows alike).bind_same fun _ => .refl _) rfl rfl rfl

theorem source (ty ty' : DataType) :
    Resembles rows exact scope scope' (.source ty) (.source ty') :=
  .of_value (.refl _) rfl rfl rfl

theorem constant (value : Value) (ty ty' : DataType) :
    Resembles rows exact scope scope' (.constant value ty) (.constant value ty') :=
  .of_value (.refl _) rfl rfl rfl

theorem parameter {param param' : Parameter}
    (same : scope.lookup param.name = scope'.lookup param'.name) :
    Resembles rows exact scope scope' (.parameter param) (.parameter param') := by
  refine .of_value ?_ rfl rfl rfl
  simp only [eval]
  rw [same]
  split
  next => exact .refl _
  next => exact .failed _ _

end Resembles

mutual

theorem resembles_self (rows : List Value) (exact : Prop) (expr : Expr) {scope scope' : Scope}
    (same : ∀ use ∈ expr.freeUses, scope.lookup use.param.name = scope'.lookup use.param.name) :
    Resembles rows exact scope scope' expr expr := by
  match expr with
  | .source ty => exact .source ty ty
  | .constant value ty => exact .constant value ty ty
  | .parameter param => exact .parameter (same _ (List.mem_singleton_self _))
  | .member target name ty => exact .member (resembles_self rows exact target same) name ty ty
  | .construct ty bindings => exact .construct ty (bindings_resemble_self rows exact bindings same)
  | .lambda param body =>
    refine .lambda fun item => resembles_self rows exact body fun use isUse => ?_
    -- What is used in the body is the item, which both scopes have, or is free in the lambda.
    rw [List.lookup_cons, List.lookup_cons]
    split
    next => rfl
    next apart => exact same (use.below param) (Expr.mem_freeUses_lambda isUse (by simpa using apart))
  | .call method arguments ty =>
    refine .call method ty ty (all_resemble_self rows exact arguments ?_) ?_
    · exact fun use isUse => same use (Expr.allFreeUses_subset method arguments ty isUse)
    · intro _ _ sequence isFirst sequence' isFirst' ordered
      rwa [Option.mem_unique isFirst isFirst']
  | .binary operator left right =>
    have uses := List.forall_mem_append.1 same
    exact .binary operator (resembles_self rows exact left uses.1)
      (resembles_self rows exact right uses.2)
  | .negation operand => exact .negation (resembles_self rows exact operand same)
  | .conditional test whenTrue whenFalse ty =>
    have uses := List.forall_mem_append.1 same
    have branches := List.forall_mem_append.1 uses.2
    exact .conditional ty ty (resembles_self rows exact test uses.1)
      (resembles_self rows exact whenTrue branches.1) (resembles_self rows exact whenFalse branches.2)
  | .convert operand ty => exact .convert (resembles_self rows exact operand same) ty
  | .function called arguments =>
    exact .textFunction called (all_resemble_self rows exact arguments same)

theorem all_resemble_self (rows : List Value) (exact : Prop) (exprs : List Expr)
    {scope scope' : Scope}
    (same : ∀ use ∈ Expr.allFreeUses exprs,
      scope.lookup use.param.name = scope'.lookup use.param.name) :
    List.Forall₂ (Resembles rows exact scope scope') exprs exprs := by
  match exprs with
  | [] => exact .nil
  | expr :: rest =>
    have uses := List.forall_mem_append.1 same
    exact .cons (resembles_self rows exact expr uses.1) (all_resemble_self rows exact rest uses.2)

theorem bindings_resemble_self (rows : List Value) (exact : Prop) (bindings : List (String × Expr))
    {scope scope' : Scope}
    (same : ∀ use ∈ Expr.bindingFreeUses bindings,
      scope.lookup use.param.name = scope'.lookup use.param.name) :
    BindingsResemble rows exact scope scope' bindings bindings := by
  match bindings with
  | [] => exact .nil
  | (_, expr) :: rest =>
    have uses := List.forall_mem_append.1 same
    exact .cons ⟨rfl, resembles_self rows exact expr uses.1⟩
      (bindings_resemble_self rows exact rest uses.2)

end

end Evaluation

end QueryProjection
