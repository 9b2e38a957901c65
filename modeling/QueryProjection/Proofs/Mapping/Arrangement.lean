import Mathlib.Algebra.Group.Nat.Defs
import QueryProjection.Proofs.Evaluation.Arrangement

set_option autoImplicit false

namespace QueryProjection

open Outcome

def Binder.levels (binder : Binder) : List OrderKey → Outcome (List OrderLevel)
  | [] => .ok []
  | key :: rest => do
      let path ← binder.memberPath key.path
      let others ← levels binder rest
      return ⟨key.direction, ⟨binder.element, path⟩⟩ :: others

def Mapping.levelsToSource (mapping : Mapping) : List OrderLevel → Outcome (List OrderLevel)
  | [] => .ok []
  | level :: rest => do
      let key ← mapping.lambdaToSource level.key
      let others ← levelsToSource mapping rest
      return ⟨level.direction, key⟩ :: others

theorem Binder.levels_eq_ok {binder : Binder} {order : List OrderKey} {levels : List OrderLevel} :
    binder.levels order = .ok levels ↔
      List.Forall₂ (fun key level => ∃ path, binder.memberPath key.path = .ok path ∧
        level = ⟨key.direction, ⟨binder.element, path⟩⟩) order levels := by
  induction order generalizing levels with
  | nil => simp [Binder.levels, eq_comm]
  | cons key rest ih =>
    simp only [Binder.levels, bind_eq_ok, pure_eq_ok, List.forall₂_cons_left_iff, ih]
    constructor
    · rintro ⟨path, reads, others, areOthers, rfl⟩
      exact ⟨_, others, ⟨path, reads, rfl⟩, areOthers, rfl⟩
    · rintro ⟨_, others, ⟨path, reads, rfl⟩, areOthers, rfl⟩
      exact ⟨path, reads, others, areOthers, rfl⟩

theorem Mapping.levelsToSource_eq_ok {mapping : Mapping} {levels mapped : List OrderLevel} :
    mapping.levelsToSource levels = .ok mapped ↔
      List.Forall₂ (fun level level' => ∃ key, mapping.lambdaToSource level.key = .ok key ∧
        level' = ⟨level.direction, key⟩) levels mapped := by
  induction levels generalizing mapped with
  | nil => simp [levelsToSource, eq_comm]
  | cons level rest ih =>
    simp only [levelsToSource, bind_eq_ok, pure_eq_ok, List.forall₂_cons_left_iff, ih]
    constructor
    · rintro ⟨key, isKey, others, areOthers, rfl⟩
      exact ⟨_, others, ⟨key, isKey, rfl⟩, areOthers, rfl⟩
    · rintro ⟨_, others, ⟨key, isKey, rfl⟩, areOthers, rfl⟩
      exact ⟨key, isKey, others, areOthers, rfl⟩

/-- Counts of rows fit a signed integer of 64 bits. -/
def Arrangement.Fits (skip top : Option Nat) : Prop :=
  (∀ number ∈ skip, number < 2 ^ 63) ∧ ∀ number ∈ top, number < 2 ^ 63

namespace Expr

def orderCalls : (isFirst : Bool) → Expr → List OrderLevel → Expr
  | _, sequence, [] => sequence
  | isFirst, sequence, level :: rest =>
      orderCalls false
        (.apply (Arrangement.orderMethod isFirst level.direction) [sequence, .ofLambda level.key]) rest

def limitCall (method : SequenceMethod) (sequence : Expr) : Option Nat → Expr
  | none => sequence
  | some number => .apply method [sequence, .count number]

def arrangeCalls (levels : List OrderLevel) (skip top : Option Nat) (sequence : Expr) : Expr :=
  limitCall .take (limitCall .skip (orderCalls true sequence levels) skip) top

theorem ordered_orderCalls (isFirst : Bool) (sequence : Expr) (levels : List OrderLevel) :
    Ordered isFirst levels sequence (orderCalls isFirst sequence levels) := by
  induction levels generalizing isFirst sequence with
  | nil => exact .nil _ _
  | cons level rest ih => exact .cons _ (ih false _)

theorem limited_limitCall (method : SequenceMethod) (sequence : Expr) (number : Option Nat) :
    Limited method number sequence (limitCall method sequence number) := by
  cases number with
  | none => exact .none _
  | some number => exact .some number _ _

theorem arranges_arrangeCalls (levels : List OrderLevel) (skip top : Option Nat) (sequence : Expr) :
    Arranges levels skip top sequence (arrangeCalls levels skip top sequence) :=
  ⟨ordered_orderCalls _ _ _, limited_limitCall _ _ _, limited_limitCall _ _ _⟩

end Expr

namespace Arrangement

theorem checkedCount_eq_ok {number : Nat} {checked : Int} :
    checkedCount number = .ok checked ↔ number < 2 ^ 63 ∧ checked = number := by
  unfold checkedCount
  split
  next fits =>
    rw [Except.ok.injEq]
    exact ⟨fun same => ⟨fits, same.symm⟩, fun same => same.2.symm⟩
  next large =>
    constructor
    · intro refused
      contradiction
    · intro fits
      exact absurd fits.1 large

theorem orderedBy_eq_ok {binder : Binder} {isFirst : Bool} {sequence expr : Expr}
    {order : List OrderKey} :
    orderedBy binder isFirst sequence order = .ok expr ↔
      ∃ levels, binder.levels order = .ok levels ∧
        expr = Expr.orderCalls isFirst sequence levels := by
  induction order generalizing isFirst sequence with
  | nil => simp [orderedBy, Binder.levels, Expr.orderCalls, eq_comm]
  | cons key rest ih =>
    simp only [orderedBy, Binder.levels, bind_eq_ok, pure_eq_ok, ih]
    constructor
    · rintro ⟨path, bound, levels, others, rfl⟩
      exact ⟨_, ⟨path, bound, levels, others, rfl⟩, rfl⟩
    · rintro ⟨_, ⟨path, bound, levels, others, rfl⟩, rfl⟩
      exact ⟨path, bound, levels, others, rfl⟩

theorem skippedBy_eq_ok {sequence expr : Expr} {skip : Option Nat} :
    skippedBy sequence skip = .ok expr ↔
      (∀ number ∈ skip, number < 2 ^ 63) ∧ expr = Expr.limitCall .skip sequence skip := by
  cases skip with
  | none => simp [skippedBy, Expr.limitCall, eq_comm]
  | some number =>
    simp only [skippedBy, bind_eq_ok, pure_eq_ok, checkedCount_eq_ok]
    constructor
    · rintro ⟨_, ⟨fits, rfl⟩, rfl⟩
      exact ⟨by simpa using fits, rfl⟩
    · rintro ⟨fits, rfl⟩
      exact ⟨number, ⟨by simpa using fits, rfl⟩, rfl⟩

theorem takenBy_eq_ok {sequence expr : Expr} {top : Option Nat} :
    takenBy sequence top = .ok expr ↔
      (∀ number ∈ top, number < 2 ^ 63) ∧ expr = Expr.limitCall .take sequence top := by
  cases top with
  | none => simp [takenBy, Expr.limitCall, eq_comm]
  | some number =>
    simp only [takenBy, bind_eq_ok, pure_eq_ok, checkedCount_eq_ok]
    constructor
    · rintro ⟨_, ⟨fits, rfl⟩, rfl⟩
      exact ⟨by simpa using fits, rfl⟩
    · rintro ⟨fits, rfl⟩
      exact ⟨number, ⟨by simpa using fits, rfl⟩, rfl⟩

theorem applyTo_eq_ok (arrangement : Arrangement) (binder : Binder) (sequence : Expr)
    {expr : Expr} :
    arrangement.applyTo binder sequence = .ok expr ↔
      ∃ levels, binder.levels arrangement.order = .ok levels ∧
        Fits arrangement.skip arrangement.top ∧
        expr = Expr.arrangeCalls levels arrangement.skip arrangement.top sequence := by
  simp only [applyTo, bind_eq_ok, orderedBy_eq_ok, skippedBy_eq_ok, takenBy_eq_ok]
  constructor
  · rintro ⟨_, ⟨levels, bound, rfl⟩, _, ⟨skips, rfl⟩, takes, rfl⟩
    exact ⟨levels, bound, ⟨skips, takes⟩, rfl⟩
  · rintro ⟨levels, bound, ⟨skips, takes⟩, rfl⟩
    exact ⟨_, ⟨levels, bound, rfl⟩, _, ⟨skips, rfl⟩, takes, rfl⟩

end Arrangement

namespace Mapping

variable {mapping : Mapping}

theorem toSource_apply {method : SequenceMethod} {first second expr : Expr} :
    mapping.toSource (.apply method [first, second]) = .ok expr ↔
      ∃ first' second', mapping.toSource first = .ok first' ∧
        mapping.toSource second = .ok second' ∧ expr = .apply method [first', second'] := by
  simp only [Expr.apply, toSource, allToSource, bind_eq_ok, pure_eq_ok, Except.ok.injEq]
  constructor
  · rintro ⟨_, ⟨first', isFirst, _, ⟨second', isSecond, _, rfl, rfl⟩, rfl⟩, rfl⟩
    exact ⟨first', second', isFirst, isSecond, rfl⟩
  · rintro ⟨first', second', isFirst, isSecond, rfl⟩
    exact ⟨_, ⟨first', isFirst, _, ⟨second', isSecond, _, rfl, rfl⟩, rfl⟩, rfl⟩

theorem toSource_ofLambda {lambda : Lambda} {expr : Expr} :
    mapping.toSource (.ofLambda lambda) = .ok expr ↔
      ∃ mapped, mapping.lambdaToSource lambda = .ok mapped ∧ expr = .ofLambda mapped := by
  simp only [Expr.ofLambda, toSource, lambdaToSource, bind_eq_ok, pure_eq_ok]
  constructor
  · rintro ⟨body, isBody, rfl⟩
    exact ⟨_, ⟨body, isBody, rfl⟩, rfl⟩
  · rintro ⟨_, ⟨body, isBody, rfl⟩, rfl⟩
    exact ⟨body, isBody, rfl⟩

theorem toSource_orderCalls {isFirst : Bool} {levels : List OrderLevel} {sequence expr : Expr} :
    mapping.toSource (Expr.orderCalls isFirst sequence levels) = .ok expr ↔
      ∃ mapped source, mapping.levelsToSource levels = .ok mapped ∧
        mapping.toSource sequence = .ok source ∧
        expr = Expr.orderCalls isFirst source mapped := by
  induction levels generalizing isFirst sequence with
  | nil => simp [Expr.orderCalls, levelsToSource, eq_comm]
  | cons level rest ih =>
    simp only [Expr.orderCalls, ih, levelsToSource, toSource_apply, toSource_ofLambda, bind_eq_ok,
      pure_eq_ok]
    constructor
    · rintro ⟨others, _, areOthers, ⟨source, _, isSource, ⟨key, isKey, rfl⟩, rfl⟩, rfl⟩
      exact ⟨_, source, ⟨key, isKey, others, areOthers, rfl⟩, isSource, rfl⟩
    · rintro ⟨_, source, ⟨key, isKey, others, areOthers, rfl⟩, isSource, rfl⟩
      exact ⟨others, _, areOthers, ⟨source, _, isSource, ⟨key, isKey, rfl⟩, rfl⟩, rfl⟩

theorem toSource_limitCall {method : SequenceMethod} {number : Option Nat}
    {sequence expr : Expr} :
    mapping.toSource (Expr.limitCall method sequence number) = .ok expr ↔
      ∃ source, mapping.toSource sequence = .ok source ∧
        expr = Expr.limitCall method source number := by
  cases number with
  | none => simp [Expr.limitCall, eq_comm]
  | some number =>
    have count : mapping.toSource (Expr.count number) = .ok (Expr.count number) := rfl
    simp only [Expr.limitCall, toSource_apply, count, Except.ok.injEq]
    constructor
    · rintro ⟨source, _, isSource, rfl, rfl⟩
      exact ⟨source, isSource, rfl⟩
    · rintro ⟨source, isSource, rfl⟩
      exact ⟨source, _, isSource, rfl, rfl⟩

theorem toSource_arrangeCalls (levels : List OrderLevel) (skip top : Option Nat) (sequence : Expr)
    {expr : Expr} :
    mapping.toSource (Expr.arrangeCalls levels skip top sequence) = .ok expr ↔
      ∃ mapped source, mapping.levelsToSource levels = .ok mapped ∧
        mapping.toSource sequence = .ok source ∧
        expr = Expr.arrangeCalls mapped skip top source := by
  simp only [Expr.arrangeCalls, toSource_limitCall, toSource_orderCalls]
  constructor
  · rintro ⟨_, ⟨_, ⟨mapped, source, areMapped, isSource, rfl⟩, rfl⟩, rfl⟩
    exact ⟨mapped, source, areMapped, isSource, rfl⟩
  · rintro ⟨mapped, source, areMapped, isSource, rfl⟩
    exact ⟨_, ⟨_, ⟨mapped, source, areMapped, isSource, rfl⟩, rfl⟩, rfl⟩

theorem lambdaToSource_arrangeCalls (param : Parameter) (levels : List OrderLevel)
    (skip top : Option Nat) {used : Lambda} :
    mapping.lambdaToSource ⟨param, .arrangeCalls levels skip top (.parameter param)⟩ = .ok used ↔
      ∃ mapped, mapping.levelsToSource levels = .ok mapped ∧
        used = ⟨mapping.parameterToSource param,
          .arrangeCalls mapped skip top (.parameter (mapping.parameterToSource param))⟩ := by
  simp only [lambdaToSource, bind_eq_ok, pure_eq_ok, toSource_arrangeCalls, toSource,
    Except.ok.injEq]
  constructor
  · rintro ⟨_, ⟨mapped, _, areMapped, rfl, rfl⟩, rfl⟩
    exact ⟨mapped, areMapped, rfl⟩
  · rintro ⟨mapped, areMapped, rfl⟩
    exact ⟨_, ⟨mapped, _, areMapped, rfl, rfl⟩, rfl⟩

end Mapping

structure OrderLevel.AreKeys (levels : List OrderLevel) : Prop where
  closed : OrderLevel.Closed levels
  named : ∀ level ∈ levels, level.key.parameter.name = elementName

namespace Expr

variable {levels : List OrderLevel} {skip top : Option Nat} {target : Parameter} {replacement : Expr}

theorem substitute_ofLambda (target : Parameter) (replacement : Expr) {lambda : Lambda}
    (closed : lambda.body.ScopedIn [lambda.parameter])
    (apart : lambda.parameter.name ≠ target.name) :
    substitute target replacement (.ofLambda lambda) = .ofLambda lambda := by
  have other : lambda.parameter ≠ target := fun same => apart (congrArg Parameter.name same)
  have hidden : ¬ target.VisibleIn [lambda.parameter] := by
    simp [Parameter.VisibleIn, apart]
  simp only [ofLambda, substitute, if_neg other,
    substitute_of_not_visible target replacement lambda.body closed hidden]

theorem substitute_orderCalls (keys : OrderLevel.AreKeys levels) (apart : elementName ≠ target.name)
    (replacement : Expr) (isFirst : Bool) (sequence : Expr) :
    Ordered isFirst levels (substitute target replacement sequence)
      (substitute target replacement (orderCalls isFirst sequence levels)) := by
  induction levels generalizing isFirst sequence with
  | nil => exact .nil _ _
  | cons level rest ih =>
    obtain ⟨closedKey, closedRest⟩ := List.forall_mem_cons.1 keys.closed
    obtain ⟨named, namedRest⟩ := List.forall_mem_cons.1 keys.named
    have same := substitute_ofLambda target replacement closedKey (by rwa [named])
    have later := ih ⟨closedRest, namedRest⟩ false
      (.apply (Arrangement.orderMethod isFirst level.direction) [sequence, .ofLambda level.key])
    simp only [apply, substitute, substituteAll, same] at later
    exact .cons _ later

theorem substitute_limitCall {method : SequenceMethod} {number : Option Nat} {sequence : Expr} :
    Limited method number (substitute target replacement sequence)
      (substitute target replacement (limitCall method sequence number)) := by
  cases number with
  | none => exact .none _
  | some number => exact .some number _ _

theorem arranges_applyTo (keys : OrderLevel.AreKeys levels) (apart : elementName ≠ target.name)
    (sequence : Expr) :
    Arranges levels skip top sequence
      (Lambda.applyTo ⟨target, arrangeCalls levels skip top (.parameter target)⟩ sequence) := by
  have orders := substitute_orderCalls keys apart sequence true (.parameter target)
  simp only [substitute, if_true] at orders
  exact ⟨orders, substitute_limitCall, substitute_limitCall⟩

end Expr

theorem Binder.levels_areKeys {binder : Binder} {order : List OrderKey} {levels : List OrderLevel}
    (bound : binder.levels order = .ok levels) : OrderLevel.AreKeys levels := by
  have each := (Binder.levels_eq_ok.1 bound).flip
  constructor
  · intro level isLevel
    obtain ⟨key, -, path, reads, rfl⟩ := exists_of_forall₂ each isLevel
    exact memberPath_scopedIn reads
  · intro level isLevel
    obtain ⟨key, -, path, reads, rfl⟩ := exists_of_forall₂ each isLevel
    rfl

theorem Mapping.lambdaToSource_spec {mapping : Mapping} {lambda mapped : Lambda}
    (closed : lambda.body.ScopedIn [lambda.parameter])
    (translated : mapping.lambdaToSource lambda = .ok mapped) :
    mapped.parameter = mapping.parameterToSource lambda.parameter ∧
      mapped.body.ScopedIn [mapped.parameter] ∧ mapped.body.ConstructFree := by
  simp only [lambdaToSource, bind_eq_ok, pure_eq_ok] at translated
  obtain ⟨body, isBody, rfl⟩ := translated
  exact ⟨rfl, mapping.toSource_spec lambda.body closed isBody⟩

theorem Mapping.levelsToSource_spec {mapping : Mapping} {levels mapped : List OrderLevel}
    (keys : OrderLevel.AreKeys levels) (translated : mapping.levelsToSource levels = .ok mapped) :
    OrderLevel.AreKeys mapped ∧ ∀ level ∈ mapped, level.key.body.ConstructFree := by
  have each : ∀ level' ∈ mapped, level'.key.parameter.name = elementName ∧
      level'.key.body.ScopedIn [level'.key.parameter] ∧ level'.key.body.ConstructFree := by
    intro level' isLevel'
    obtain ⟨level, isLevel, key, isKey, rfl⟩ :=
      exists_of_forall₂ (levelsToSource_eq_ok.1 translated).flip isLevel'
    obtain ⟨same, closed, free⟩ := lambdaToSource_spec (keys.closed level isLevel) isKey
    refine ⟨?_, closed, free⟩
    rw [same]
    exact keys.named level isLevel
  exact ⟨⟨fun level isLevel => (each level isLevel).2.1, fun level isLevel => (each level isLevel).1⟩,
    fun level isLevel => (each level isLevel).2.2⟩

end QueryProjection
