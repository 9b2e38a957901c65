import QueryProjection.Proofs.Evaluation.Sequences
import QueryProjection.Proofs.Filter.Built

set_option autoImplicit false

namespace QueryProjection

open Outcome

def Lambda.valueOn (lambda : Lambda) (rows : List Value) (item : Value) : Outcome Value :=
  Evaluation.eval rows [(lambda.parameter.name, item)] lambda.body

structure OrderLevel where
  direction : SortDirection
  key : Lambda

def OrderLevel.sortKey (rows : List Value) (scope : Evaluation.Scope) (level : OrderLevel) :
    Evaluation.SortKey where
  key item := Evaluation.eval rows ((level.key.parameter.name, item) :: scope) level.key.body
  descending := level.direction == .descending

def OrderLevel.Closed (levels : List OrderLevel) : Prop :=
  ∀ level ∈ levels, level.key.body.ScopedIn [level.key.parameter]

namespace Expr

inductive Ordered : (isFirst : Bool) → List OrderLevel → Expr → Expr → Prop where
  | nil (isFirst : Bool) (sequence : Expr) : Ordered isFirst [] sequence sequence
  | cons {isFirst : Bool} {level : OrderLevel} {rest : List OrderLevel} {sequence outer : Expr}
      (ty : DataType)
      (later : Ordered false rest
        (.call (Arrangement.orderMethod isFirst level.direction)
          [sequence, .ofLambda level.key] ty) outer) :
      Ordered isFirst (level :: rest) sequence outer

inductive Limited (method : SequenceMethod) : Option Nat → Expr → Expr → Prop where
  | none (sequence : Expr) : Limited method none sequence sequence
  | some (number : Nat) (sequence : Expr) (ty : DataType) :
      Limited method (some number) sequence (.call method [sequence, .count number] ty)

inductive Arranges (levels : List OrderLevel) (skip top : Option Nat) (inner outer : Expr) : Prop where
  | intro {ordered skipped : Expr} (orders : Ordered true levels inner ordered)
      (skips : Limited .skip skip ordered skipped) (takes : Limited .take top skipped outer)

variable {levels : List OrderLevel} {skip top : Option Nat} {inner outer : Expr}

theorem scopedIn_of_closed_lambda {lambda : Lambda}
    (closed : lambda.body.ScopedIn [lambda.parameter]) (declared : Declared) :
    (Expr.ofLambda lambda).ScopedIn declared := by
  show lambda.body.ScopedIn (lambda.parameter :: declared)
  refine ScopedIn.mono lambda.body closed ?_
  intro param visible
  rcases Parameter.visibleIn_cons.1 visible with same | ⟨-, outside⟩
  · exact Parameter.visibleIn_cons.2 (.inl same)
  · simp [Parameter.VisibleIn] at outside

theorem orderMethod_ne_select (isFirst : Bool) (direction : SortDirection) :
    Arrangement.orderMethod isFirst direction ≠ .select := by
  cases isFirst <;> cases direction <;> decide

theorem Ordered.preserves (holds : Expr → Prop)
    (calls : ∀ method first second ty, method ≠ .select → holds first → holds second →
      holds (.call method [first, second] ty))
    {isFirst : Bool} (orders : Ordered isFirst levels inner outer)
    (keys : ∀ level ∈ levels, holds (.ofLambda level.key)) (isInner : holds inner) :
    holds outer := by
  induction orders with
  | nil => exact isInner
  | cons ty later ih =>
    obtain ⟨isKey, areKeys⟩ := List.forall_mem_cons.1 keys
    exact ih areKeys (calls _ _ _ _ (orderMethod_ne_select _ _) isInner isKey)

theorem Arranges.preserves (holds : Expr → Prop)
    (calls : ∀ method first second ty, method ≠ .select → holds first → holds second →
      holds (.call method [first, second] ty))
    (counts : ∀ number, holds (.count number))
    (keys : ∀ level ∈ levels, holds (.ofLambda level.key))
    (arranges : Arranges levels skip top inner outer) (isInner : holds inner) : holds outer := by
  have limits : ∀ {method number sequence limited}, method ≠ .select →
      Limited method number sequence limited → holds sequence → holds limited := by
    intro method number sequence limited other limits isSequence
    cases limits with
    | none => exact isSequence
    | some => exact calls _ _ _ _ other isSequence (counts _)
  obtain ⟨orders, skips, takes⟩ := arranges
  have isOrdered := orders.preserves holds calls keys isInner
  have isSkipped := limits (by decide) skips isOrdered
  exact limits (by decide) takes isSkipped

theorem Arranges.scopedIn (arranges : Arranges levels skip top inner outer) (declared : Declared)
    (closed : OrderLevel.Closed levels) (inScope : inner.ScopedIn declared) :
    outer.ScopedIn declared :=
  arranges.preserves (ScopedIn declared) (fun _ _ _ _ _ first second => ⟨first, second, trivial⟩)
    (fun _ => trivial) (fun level member => scopedIn_of_closed_lambda (closed level member) declared)
    inScope

theorem Arranges.constructFree (arranges : Arranges levels skip top inner outer)
    (free : ∀ level ∈ levels, level.key.body.ConstructFree) (freeInner : inner.ConstructFree) :
    outer.ConstructFree :=
  arranges.preserves ConstructFree (fun _ _ _ _ _ first second => ⟨first, second, trivial⟩)
    (fun _ => trivial)
    (fun level member => free level member) freeInner

end Expr

namespace Evaluation

variable {rows : List Value} {scope : Scope} {inner outer : Expr} {items : Outcome (List Value)}
  {levels : List OrderLevel} {skip top : Option Nat}

def OrderYields (rows : List Value) (scope : Scope) (levels : List SortKey) (expr : Expr)
    (items : Outcome (List Value)) : Prop :=
  ∃ (method : SequenceMethod) (arguments : List Expr) (ty : DataType),
    expr = .call method arguments ty ∧ method.isOrdering = true ∧
      ∀ whole, Agree (evalOrder rows scope whole method arguments)
        (items >>= fun values => .ok (levels, values))

theorem isOrdering_orderMethod (isFirst : Bool) (direction : SortDirection) :
    (Arrangement.orderMethod isFirst direction).isOrdering = true := by
  cases isFirst <;> cases direction <;> rfl

theorem startsOrder_orderMethod (isFirst : Bool) (direction : SortDirection) :
    (Arrangement.orderMethod isFirst direction).startsOrder = isFirst := by
  cases isFirst <;> cases direction <;> rfl

theorem refinesOrder_orderMethod (isFirst : Bool) (direction : SortDirection) :
    (Arrangement.orderMethod isFirst direction).refinesOrder = !isFirst := by
  cases isFirst <;> cases direction <;> rfl

theorem isDescending_orderMethod (isFirst : Bool) (direction : SortDirection) :
    (Arrangement.orderMethod isFirst direction).isDescending = (direction == .descending) := by
  cases isFirst <;> cases direction <;> rfl

theorem OrderYields.first (yields : Yields rows scope inner items) (level : OrderLevel)
    (ty : DataType) :
    OrderYields rows scope [level.sortKey rows scope]
      (.call (Arrangement.orderMethod true level.direction) [inner, .ofLambda level.key] ty) items := by
  refine ⟨_, _, _, rfl, isOrdering_orderMethod _ _, fun whole => ?_⟩
  rw [Expr.ofLambda, evalOrder_eq, startsOrder_orderMethod, isDescending_orderMethod]
  simp only [List.head?_cons, Option.bind_some, functionIn, if_true]
  refine Agree.trans ?_ (Agree.bind yields fun values => .refl _)
  unfold itemsIn
  cases eval rows scope inner with
  | error cause => exact .failed _ _
  | ok value => exact Agree.refl _

theorem OrderYields.next {above : List SortKey} (yields : OrderYields rows scope above inner items)
    (level : OrderLevel) (ty : DataType) :
    OrderYields rows scope (above ++ [level.sortKey rows scope])
      (.call (Arrangement.orderMethod false level.direction) [inner, .ofLambda level.key] ty) items := by
  obtain ⟨method, arguments, innerTy, rfl, ordering, levels_⟩ := yields
  refine ⟨_, _, _, rfl, isOrdering_orderMethod _ _, fun whole => ?_⟩
  rw [Expr.ofLambda, evalOrder_eq, startsOrder_orderMethod, isDescending_orderMethod]
  simp only [List.head?_cons, Option.bind_some, functionIn, orderIn, Bool.false_eq_true, if_false,
    ordering, if_true]
  refine (Agree.bind (levels_ whole) fun order => .refl _).trans ?_
  cases items with
  | ok values => exact Agree.refl _
  | error cause => exact Agree.refl _

theorem OrderYields.yields {above : List SortKey} (ordered : OrderYields rows scope above inner items) :
    Yields rows scope inner (items >>= orderItems above) := by
  obtain ⟨method, arguments, ty, rfl, ordering, levels_⟩ := ordered
  unfold Yields itemsIn
  simp only [eval, ordering, if_true]
  refine (Agree.bind (Agree.bind (levels_ _) fun order => .refl _) fun value => .refl _).trans ?_
  cases items with
  | ok values =>
    simp only [ok_bind, sortItems, orderItems]
    cases keyItems above values <;> exact Agree.refl _
  | error cause => exact Agree.refl _

theorem OrderYields.ordered {above : List SortKey} {isFirst : Bool}
    (orders : Expr.Ordered isFirst levels inner outer) (later : isFirst = false)
    (yields : OrderYields rows scope above inner items) :
    OrderYields rows scope (above ++ levels.map (OrderLevel.sortKey rows scope)) outer items := by
  induction orders generalizing above with
  | nil => simpa using yields
  | @cons isFirst level rest _ _ ty _ ih =>
    subst later
    simpa using ih rfl (yields.next level ty)

theorem Yields.ordered (orders : Expr.Ordered true levels inner outer)
    (yields : Yields rows scope inner items) :
    Yields rows scope outer (items >>= orderItems (levels.map (OrderLevel.sortKey rows scope))) := by
  cases orders with
  | nil =>
    refine yields.congr ?_
    cases items with
    | ok values => exact .of_eq (orderItems_nil values).symm
    | error cause => exact Agree.refl _
  | cons ty later => exact ((OrderYields.first yields _ ty).ordered later rfl).yields

theorem sortKeys_alike (rows : List Value) (closed : OrderLevel.Closed levels) (scope : Scope) :
    KeysAlike (levels.map (OrderLevel.sortKey rows scope))
      (levels.map (OrderLevel.sortKey rows [])) := by
  induction levels with
  | nil => exact .nil
  | cons level rest ih =>
    obtain ⟨isClosed, areClosed⟩ := List.forall_mem_cons.1 closed
    have key : SameOn (level.sortKey rows scope).key (level.sortKey rows []).key :=
      fun item => eval_closed rows isClosed item scope
    exact .cons ⟨rfl, key.agreeOn⟩ (ih areClosed)

def arrangeItems (levels : List SortKey) (skip top : Option Nat) (items : List Value) :
    Outcome (List Value) := do
  return window skip top (← orderItems levels items)

theorem Yields.arranged (arranges : Expr.Arranges levels skip top inner outer)
    (yields : Yields rows scope inner items) :
    Yields rows scope outer
      (items >>= arrangeItems (levels.map (OrderLevel.sortKey rows scope)) skip top) := by
  obtain @⟨_, below, orders, skips, takes⟩ := arranges
  have ordered := yields.ordered orders
  generalize levels.map (OrderLevel.sortKey rows scope) = keys at ordered
  have skipped : Yields rows scope below ((items >>= orderItems keys) >>= fun values =>
      .ok (values.drop (skip.getD 0))) := by
    cases skips with
    | none => exact ordered.congr (by cases items >>= orderItems keys <;> exact Agree.refl _)
    | some number _ ty => exact ordered.skip number ty
  -- An option that is missing is no call, and leaves the sequence as it is.
  have taken : Yields rows scope outer (((items >>= orderItems keys) >>= fun values =>
      .ok (values.drop (skip.getD 0))) >>= fun values => .ok (window none top values)) := by
    cases takes with
    | none => exact skipped.congr (by
        generalize (items >>= orderItems keys) >>= _ = left
        cases left <;> exact Agree.refl _)
    | some number _ ty => exact skipped.take number ty
  refine taken.congr ?_
  cases items with
  | ok values =>
    simp only [ok_bind, arrangeItems]
    cases orderItems keys values <;> exact Agree.refl _
  | error cause => exact Agree.refl _

theorem arrangeItems_agree {left right : List SortKey} (alike : KeysAlike left right)
    (skip top : Option Nat) (items : List Value) :
    Agree (arrangeItems left skip top items) (arrangeItems right skip top items) := by
  unfold arrangeItems orderItems
  refine Agree.bind (Agree.bind (keyItems_agree alike items) fun keyed => ?_) fun ordered => .refl _
  simp only [compareKeys_related alike]
  exact .refl _

end Evaluation

namespace Expr

open Evaluation

variable {rows : List Value} {exact : Prop} {scope scope' : Scope} {levels : List OrderLevel}
  {skip top : Option Nat} {inner inner' outer outer' : Expr}

theorem resembles_closed {lambda : Lambda} (closed : lambda.body.ScopedIn [lambda.parameter]) :
    Resembles rows exact scope scope' (.ofLambda lambda) (.ofLambda lambda) := by
  have inScope : (Expr.ofLambda lambda).ScopedIn [] := closed
  refine resembles_self rows exact _ fun use isUse => ?_
  have visible := ScopedIn.visible (.ofLambda lambda) inScope use isUse
  simp [Parameter.VisibleIn] at visible

theorem Ordered.resembles {isFirst : Bool} (orders : Ordered isFirst levels inner outer)
    (orders' : Ordered isFirst levels inner' outer') (closed : OrderLevel.Closed levels)
    (seen : isFirst = false → inner.isOrderingCall = true)
    (alike : Resembles rows exact scope scope' inner inner') :
    Resembles rows exact scope scope' outer outer' := by
  induction orders generalizing inner' with
  | nil =>
    cases orders'
    exact alike
  | cons ty later ih =>
    cases orders' with
    | cons ty' later' =>
      obtain ⟨closedKey, closedRest⟩ := List.forall_mem_cons.1 closed
      refine ih later' closedRest (fun _ => isOrdering_orderMethod _ _) ?_
      refine .call _ ty ty' (.cons alike (.cons (resembles_closed closedKey) .nil)) ?_
      intro _ refines sequence isSequence _ _ _
      cases isSequence
      exact seen (by simpa [refinesOrder_orderMethod] using refines)

theorem Limited.resembles {method : SequenceMethod} {number : Option Nat}
    (limits : Limited method number inner outer) (limits' : Limited method number inner' outer')
    (plain : method.refinesOrder = false) (alike : Resembles rows exact scope scope' inner inner') :
    Resembles rows exact scope scope' outer outer' := by
  cases limits with
  | none =>
    cases limits'
    exact alike
  | some _ _ ty =>
    cases limits' with
    | some _ _ ty' =>
      refine .call method ty ty' (.cons alike (.cons (.constant _ _ _) .nil)) ?_
      intro _ refines
      rw [plain] at refines
      cases refines

theorem Arranges.resembles (arranges : Arranges levels skip top inner outer)
    (arranges' : Arranges levels skip top inner' outer') (closed : OrderLevel.Closed levels)
    (alike : Resembles rows exact scope scope' inner inner') :
    Resembles rows exact scope scope' outer outer' := by
  obtain ⟨orders, skips, takes⟩ := arranges
  obtain ⟨orders', skips', takes'⟩ := arranges'
  have ordered := orders.resembles orders' closed (fun later => by cases later) alike
  exact takes.resembles takes' rfl (skips.resembles skips' rfl ordered)

theorem Ordered.eq_or_call {isFirst : Bool} (orders : Ordered isFirst levels inner outer) :
    outer = inner ∨ ∃ method arguments ty, outer = .call method arguments ty := by
  induction orders with
  | nil => exact .inl rfl
  | cons ty _ ih =>
    rcases ih with rfl | isCall
    · exact .inr ⟨_, _, _, rfl⟩
    · exact .inr isCall

theorem Arranges.eq_or_call (arranges : Arranges levels skip top inner outer) :
    outer = inner ∨ ∃ method arguments ty, outer = .call method arguments ty := by
  obtain ⟨orders, skips, takes⟩ := arranges
  cases takes with
  | some => exact .inr ⟨_, _, _, rfl⟩
  | none =>
    cases skips with
    | some => exact .inr ⟨_, _, _, rfl⟩
    | none => exact orders.eq_or_call

theorem Arranges.fails (arranges : Arranges levels skip top inner outer) {cause : Error}
    (failed : eval rows scope inner = .error cause) : ∃ cause', eval rows scope outer = .error cause' := by
  have yields := Yields.arranged arranges (Yields.itself rows scope inner)
  have noItems : itemsIn rows scope inner = .error cause := by rw [itemsIn, failed, error_bind]
  rw [noItems, error_bind] at yields
  cases evaluated : eval rows scope outer with
  | error cause' => exact ⟨cause', rfl⟩
  | ok value =>
    rcases arranges.eq_or_call with rfl | ⟨method, arguments, ty, rfl⟩
    · rw [failed] at evaluated
      cases evaluated
    · obtain ⟨items, rfl⟩ := eval_call_eq_ok evaluated
      rw [Yields, itemsIn_eq_ok.2 evaluated] at yields
      cases yields

end Expr

end QueryProjection
