import QueryProjection.Proofs.Expansion.Selections
import QueryProjection.Proofs.Mapping.Arrangement
import QueryProjection.Proofs.Mapping.Records

set_option autoImplicit false

namespace QueryProjection

open Outcome

namespace Arrangement

def orderCalls : (isFirst : Bool) → List OrderKey → List SequenceMethod
  | _, [] => []
  | isFirst, key :: rest => orderMethod isFirst key.direction :: orderCalls false rest

def calls (arrangement : Arrangement) : List SequenceMethod :=
  orderCalls true arrangement.order ++ (arrangement.skip.toList.map fun _ => .skip) ++
    arrangement.top.toList.map fun _ => .take

theorem isOrdering_of_mem_orderCalls {isFirst : Bool} {order : List OrderKey}
    {method : SequenceMethod} (isCall : method ∈ orderCalls isFirst order) :
    method.isOrdering = true := by
  induction order generalizing isFirst with
  | nil => simp [orderCalls] at isCall
  | cons key rest ih =>
    rcases List.mem_cons.1 isCall with rfl | later
    · cases isFirst <;> cases direction : key.direction <;> rfl
    · exact ih later

theorem orderCalls_refining (order : List OrderKey) :
    (∀ method ∉ [SequenceMethod.thenBy, .thenByDescending],
        (orderCalls false order).count method = 0) ∧
      (orderCalls false order).count .thenBy + (orderCalls false order).count .thenByDescending =
        order.length := by
  induction order with
  | nil => simp [orderCalls]
  | cons key rest ih =>
    obtain ⟨others, refining⟩ := ih
    constructor
    · intro method other
      have apart : orderMethod false key.direction ≠ method := by
        rintro rfl
        cases direction : key.direction <;> simp [orderMethod, direction] at other
      rw [orderCalls, List.count_cons_of_ne apart, others method other]
    · cases direction : key.direction <;>
        simp only [orderCalls, orderMethod, direction, List.count_cons, List.length_cons] <;>
        simp <;> omega

variable (arrangement : Arrangement)

theorem count_orderings :
    arrangement.calls.count .orderBy + arrangement.calls.count .orderByDescending =
        (if arrangement.order.isEmpty then 0 else 1) ∧
      arrangement.calls.count .thenBy + arrangement.calls.count .thenByDescending =
        arrangement.order.length - 1 := by
  have limits (method : SequenceMethod) (other : method ∉ [SequenceMethod.skip, .take]) :
      arrangement.calls.count method = (orderCalls true arrangement.order).count method := by
    simp only [List.mem_cons, List.not_mem_nil, or_false, not_or] at other
    obtain ⟨notSkip, notTake⟩ := other
    simp [calls, List.count_eq_zero, notSkip, notTake]
  rw [limits .orderBy (by decide), limits .orderByDescending (by decide), limits .thenBy (by decide),
    limits .thenByDescending (by decide)]
  cases arrangement.order with
  | nil => simp [orderCalls]
  | cons key rest =>
    obtain ⟨others, refining⟩ := orderCalls_refining rest
    have noStart := others .orderBy (by decide)
    have noDescendingStart := others .orderByDescending (by decide)
    cases direction : key.direction <;>
      simp [orderCalls, orderMethod, direction, noStart, noDescendingStart, refining]

theorem count_limits :
    arrangement.calls.count .skip = (if arrangement.skip.isSome then 1 else 0) ∧
      arrangement.calls.count .take = (if arrangement.top.isSome then 1 else 0) := by
  have unlimited (method : SequenceMethod) (other : method.isOrdering = false) :
      (orderCalls true arrangement.order).count method = 0 := by
    rw [List.count_eq_zero]
    intro isCall
    rw [isOrdering_of_mem_orderCalls isCall] at other
    contradiction
  rw [calls, List.count_append, List.count_append, List.count_append, List.count_append,
    unlimited .skip rfl, unlimited .take rfl]
  cases arrangement.skip <;> cases arrangement.top <;> simp

theorem count_calls_eq_zero {method : SequenceMethod}
    (other : method ∈ [SequenceMethod.filter, .select, .toList, .toArray, .asQueryable]) :
    arrangement.calls.count method = 0 := by
  rw [List.count_eq_zero]
  intro isCall
  simp only [calls, List.mem_append, List.mem_map] at isCall
  rcases isCall with (isOrder | ⟨-, -, rfl⟩) | ⟨-, -, rfl⟩
  · have ordering := isOrdering_of_mem_orderCalls isOrder
    simp only [List.mem_cons, List.not_mem_nil, or_false] at other
    rcases other with rfl | rfl | rfl | rfl | rfl <;> contradiction
  · simp at other
  · simp at other

end Arrangement

namespace Expr

variable (method : SequenceMethod) {levels : List OrderLevel} {skip top : Option Nat}
  {inner outer : Expr} {order : List OrderKey}

theorem Ordered.callsTo {isFirst : Bool} (orders : Ordered isFirst levels inner outer)
    (free : ∀ level ∈ levels, level.key.body.CallFree)
    (same : levels.map OrderLevel.direction = order.map OrderKey.direction) :
    outer.callsTo method = inner.callsTo method + (Arrangement.orderCalls isFirst order).count method := by
  induction orders generalizing order with
  | nil =>
    obtain rfl : order = [] := by simpa using same.symm
    simp [Arrangement.orderCalls]
  | @cons isFirst level rest sequence outer ty later ih =>
    cases order with
    | nil => simp at same
    | cons key order =>
      obtain ⟨freeLevel, freeRest⟩ := List.forall_mem_cons.1 free
      obtain ⟨sameDirection, sameRest⟩ := List.cons.inj same
      have keyless : (Expr.ofLambda level.key).callsTo method = 0 := by
        rw [ofLambda, callsTo_lambda, freeLevel method]
      rw [ih freeRest sameRest, Arrangement.orderCalls, sameDirection]
      simp [keyless, List.count_cons, Nat.add_assoc, Nat.add_comm]

theorem Limited.callsTo {limit : SequenceMethod} {number : Option Nat}
    (limits : Limited limit number inner outer) :
    outer.callsTo method =
      inner.callsTo method + (number.toList.map fun _ => limit).count method := by
  cases limits with
  | none => simp
  | some number ty => simp [Expr.count]

theorem Arranges.callsTo (arranges : Arranges levels skip top inner outer)
    (free : ∀ level ∈ levels, level.key.body.CallFree)
    (same : levels.map OrderLevel.direction = order.map OrderKey.direction) :
    outer.callsTo method = inner.callsTo method + (Arrangement.calls ⟨order, skip, top⟩).count method := by
  obtain ⟨orders, skips, takes⟩ := arranges
  rw [takes.callsTo, skips.callsTo, orders.callsTo method free same]
  simp [Arrangement.calls, Nat.add_assoc]

end Expr

theorem Binder.memberPath_callFree {binder : Binder} {path : String} {expr : Expr}
    (reads : binder.memberPath path = .ok expr) : expr.CallFree :=
  memberSteps_holds Expr.stable_callFree (by simp) (fun _ => rfl) (memberSteps_of_memberPath reads)

theorem Binder.levels_callFree {binder : Binder} {order : List OrderKey} {levels : List OrderLevel}
    (bound : binder.levels order = .ok levels) :
    (∀ level ∈ levels, level.key.body.CallFree) ∧
      levels.map OrderLevel.direction = order.map OrderKey.direction := by
  have each := levels_eq_ok.1 bound
  refine ⟨fun level isLevel => ?_, map_eq_of_forall₂ (each.flip.imp ?_)⟩
  · obtain ⟨key, -, path, reads, rfl⟩ := exists_of_forall₂ each.flip isLevel
    exact memberPath_callFree reads
  · rintro level key ⟨path, -, rfl⟩
    rfl

theorem Binder.Built.callFree {binder : Binder} {paths : List String} {expr : Expr}
    (built : binder.Built paths expr) : expr.CallFree := by
  induction built with
  | path stands bound => exact memberPath_callFree bound
  | constant value ty => exact fun _ => rfl
  | binary operator _ _ first second => simp [first, second]
  | negation _ inner => simp [inner]
  | conditional ty _ _ _ first second third => simp [first, second, third]
  | unary called _ inner => simp [inner]
  | pair called _ _ first second => simp [first, second]

namespace Mapping

variable {mapping : Mapping}

mutual

theorem toSource_callFree (expr : Expr) {mapped : Expr} (free : expr.CallFree)
    (translated : mapping.toSource expr = .ok mapped) : mapped.CallFree := by
  match expr with
  | .source _ | .constant _ _ | .parameter _ =>
    simp only [toSource, Except.ok.injEq] at translated
    subst translated
    exact fun _ => rfl
  | .member target name _ =>
    simp only [toSource] at translated
    split at translated
    next =>
      obtain ⟨source, first, reads⟩ := bind_eq_ok.1 translated
      have freeSource := toSource_callFree target (Expr.callFree_member.1 free) first
      exact Expr.stable_callFree.readMapped freeSource reads
    next => simp [cannotRead] at translated
  | .construct _ _ => simp [toSource] at translated
  | .call _ _ _ => exact absurd free Expr.not_callFree_call
  | .lambda _ operand | .negation operand | .convert operand _ =>
    simp only [toSource, bind_eq_ok, pure_eq_ok] at translated
    obtain ⟨inner, first, rfl⟩ := translated
    have freeInner := toSource_callFree operand (by simpa using free) first
    simpa using freeInner
  | .binary operator left right =>
    simp only [toSource, bind_eq_ok, pure_eq_ok] at translated
    obtain ⟨first, isFirst, second, isSecond, rfl⟩ := translated
    obtain ⟨freeLeft, freeRight⟩ := Expr.callFree_binary.1 free
    exact Expr.callFree_binary.2 ⟨toSource_callFree left freeLeft isFirst,
      toSource_callFree right freeRight isSecond⟩
  | .conditional test whenTrue whenFalse _ =>
    simp only [toSource, bind_eq_ok, pure_eq_ok] at translated
    obtain ⟨first, isFirst, second, isSecond, third, isThird, rfl⟩ := translated
    obtain ⟨freeTest, freeTrue, freeFalse⟩ := Expr.callFree_conditional.1 free
    exact Expr.callFree_conditional.2 ⟨toSource_callFree test freeTest isFirst,
      toSource_callFree whenTrue freeTrue isSecond, toSource_callFree whenFalse freeFalse isThird⟩
  | .function _ arguments =>
    simp only [toSource, bind_eq_ok, pure_eq_ok] at translated
    obtain ⟨inner, all, rfl⟩ := translated
    exact Expr.callFree_function.2
      (allToSource_callFree arguments (Expr.callFree_function.1 free) all)

theorem allToSource_callFree (exprs : List Expr) {mapped : List Expr}
    (free : ∀ expr ∈ exprs, expr.CallFree) (translated : mapping.allToSource exprs = .ok mapped) :
    ∀ expr ∈ mapped, expr.CallFree := by
  match exprs with
  | [] =>
    simp only [allToSource, Except.ok.injEq] at translated
    simp [← translated]
  | expr :: rest =>
    simp only [allToSource, bind_eq_ok, pure_eq_ok] at translated
    obtain ⟨first, isFirst, others, areOthers, rfl⟩ := translated
    obtain ⟨freeFirst, freeRest⟩ := List.forall_mem_cons.1 free
    exact List.forall_mem_cons.2 ⟨toSource_callFree expr freeFirst isFirst,
      allToSource_callFree rest freeRest areOthers⟩

end

theorem lambdaToSource_callFree {lambda mapped : Lambda} (free : lambda.body.CallFree)
    (translated : mapping.lambdaToSource lambda = .ok mapped) : mapped.body.CallFree := by
  simp only [lambdaToSource, bind_eq_ok, pure_eq_ok] at translated
  obtain ⟨body, isBody, rfl⟩ := translated
  exact toSource_callFree lambda.body free isBody

theorem levelsToSource_keeps {levels mapped : List OrderLevel}
    (free : ∀ level ∈ levels, level.key.body.CallFree)
    (translated : mapping.levelsToSource levels = .ok mapped) :
    (∀ level ∈ mapped, level.key.body.CallFree) ∧
      mapped.map OrderLevel.direction = levels.map OrderLevel.direction := by
  have each := levelsToSource_eq_ok.1 translated
  refine ⟨fun level' isLevel' => ?_, map_eq_of_forall₂ (each.flip.imp ?_)⟩
  · obtain ⟨level, isLevel, key, isKey, rfl⟩ := exists_of_forall₂ each.flip isLevel'
    exact lambdaToSource_callFree (free level isLevel) isKey
  · rintro level' level ⟨key, -, rfl⟩
    rfl

theorem levelsToSource_callFree {binder : Binder} {order : List OrderKey}
    {levels mapped : List OrderLevel} (bound : binder.levels order = .ok levels)
    (translated : mapping.levelsToSource levels = .ok mapped) :
    (∀ level ∈ mapped, level.key.body.CallFree) ∧
      mapped.map OrderLevel.direction = order.map OrderKey.direction := by
  obtain ⟨free, same⟩ := Binder.levels_callFree bound
  obtain ⟨freeMapped, sameMapped⟩ := levelsToSource_keeps free translated
  exact ⟨freeMapped, sameMapped.trans same⟩

theorem construct_callsTo {parameters : ProjectionParameters} {fuel depth : Nat} {tree : IncludeTree}
    {modelType : String} {source expr : Expr} {method : SequenceMethod}
    (other : method ∉ [SequenceMethod.select, .toList, .toArray, .asQueryable])
    (free : source.CallFree)
    (constructed : mapping.construct parameters fuel tree modelType source depth = .ok expr) :
    expr.callsTo method = 0 := by
  induction fuel generalizing tree modelType source depth expr with
  | zero => simp [construct] at constructed
  | succ fuel ih =>
    obtain ⟨_, bindings, members, fuels, rfl, -, binds⟩ := construct_eq_ok constructed
    cases fuels
    rw [Expr.callsTo_construct, List.sum_eq_zero_iff_forall_eq_nat, List.forall_mem_map]
    rintro ⟨name, value⟩ bound
    obtain ⟨member, -, -, ⟨-, rfl⟩ | ⟨child, -, taken⟩⟩ := exists_of_forall₂ binds.flip bound
    · rfl
    · cases path : mapping.mapPath? modelType member.name with
      | none =>
        obtain ⟨-, value, -, rfl⟩ := bindingValue_of_parameter path taken
        rfl
      | some names =>
        rw [bindingValue_of_mapPath path] at taken
        obtain ⟨read, reads, fits⟩ := bind_eq_ok.1 taken
        have freeRead := Expr.stable_callFree.readMapped free reads
        simp only at fits ⊢
        cases fitsBy_of_fit fits with
        | same _ _ => exact freeRead method
        | converted _ _ => simp [freeRead method]
        | @items _ body _ _ _ constructed selects =>
          subst selects
          obtain ⟨made, within, counts⟩ := Selects.callsTo (Selects.coercedTo read
            ⟨itemNameAtDepth (depth + 1), read.type.elementType⟩ body member.ty.collectionKind?)
          have unmade : made.count method = 0 := List.count_eq_zero.2 fun isMade => other (within isMade)
          simp [emptyWhenNull, Expr.equalsNull, Expr.null, counts, freeRead method,
            ih (fun _ => rfl) constructed, unmade]
        | record _ _ constructed =>
          simp [emptyWhenNull, Expr.equalsNull, Expr.null, freeRead method, ih freeRead constructed]

end Mapping

end QueryProjection
