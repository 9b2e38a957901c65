import QueryProjection.Filter.Binder
import QueryProjection.Proofs.Evaluation.Agreement

set_option autoImplicit false

namespace QueryProjection

open Outcome

theorem Value.eq_null_of_isNull {value : Value} (isNull : value.isNull = true) : value = .null := by
  cases value with
  | null => rfl
  | _ => cases isNull

namespace Evaluation

def guarded : List (Outcome Value) → Outcome Value → Outcome Value
  | [], last => last
  | guard :: rest, last => do
      if (← guard).isNull then return .null else guarded rest last

def anyNull : List (Outcome Value) → Outcome Bool
  | [] => .ok false
  | guard :: rest => do
      if (← guard).isNull then return true else anyNull rest

theorem guarded_eq (guards : List (Outcome Value)) (last : Outcome Value) :
    guarded guards last = (do if ← anyNull guards then return .null else last) := by
  induction guards with
  | nil => simp [guarded, anyNull]
  | cons guard rest ih =>
    simp only [guarded, anyNull, ih]
    cases guard with
    | error cause => rfl
    | ok value => cases null_ : value.isNull <;> simp [null_]

theorem guarded_append_error {guards : List (Outcome Value)} {guard : Outcome Value} {cause : Error}
    (failed : guarded guards guard = .error cause) (last : Outcome Value) :
    guarded (guards ++ [guard]) last = .error cause := by
  induction guards with
  | nil =>
    simp only [guarded] at failed
    simp [guarded, failed]
  | cons first rest ih =>
    simp only [guarded, List.cons_append] at failed ⊢
    cases first with
    | error cause' => exact failed
    | ok value =>
      cases null_ : value.isNull with
      | true => simp [null_, pure, Except.pure] at failed
      | false =>
        simp only [ok_bind, null_, Bool.false_eq_true, if_false] at failed ⊢
        exact ih failed

theorem guarded_append (guards : List (Outcome Value)) (guard last : Outcome Value) :
    guarded (guards ++ [guard]) last =
      (do if (← guarded guards guard).isNull then return .null else last) := by
  induction guards with
  | nil => rfl
  | cons first rest ih =>
    simp only [List.cons_append, guarded, ih]
    cases first with
    | error cause => rfl
    | ok value =>
      have ofNull : Value.null.isNull = true := rfl
      cases null_ : value.isNull <;> simp [null_, ofNull, pure, Except.pure]

theorem guarded_eq_ok {guards : List (Outcome Value)} {last : Outcome Value} {value : Value}
    (held : guarded guards last = .ok value) : value = .null ∨ last = .ok value := by
  induction guards with
  | nil => exact .inr held
  | cons guard rest ih =>
    obtain ⟨first, -, held⟩ := bind_eq_ok.1 held
    split at held
    next => exact .inl (pure_eq_ok.1 held).symm
    next => exact ih held

theorem guarded_agree {guards guards' : List (Outcome Value)} {last last' : Outcome Value}
    (alike : List.Forall₂ Agree guards guards') (same : Agree last last') :
    Agree (guarded guards last) (guarded guards' last') := by
  induction alike with
  | nil => exact same
  | cons first rest ih =>
    refine Agree.bind first fun value => ?_
    split
    next => exact .refl _
    next => exact ih

theorem equals_null (value : Value) : value.equals .null = value.isNull := by
  cases value <;> simp [Value.equals, Value.isNull]

variable (rows : List Value) (scope : Scope)

def TestsNull (test : Expr) (tested : Outcome Value) : Prop :=
  eval rows scope test = (do return .bool (← tested).isNull)

theorem testsNull_equal (operand : Expr) (ty : DataType) :
    TestsNull rows scope (.binary .eq operand (.constant .null ty)) (eval rows scope operand) := by
  simp only [TestsNull, eval]
  cases eval rows scope operand with
  | error cause => rfl
  | ok value =>
    simp only [ok_bind, compareBy, equals_null]

variable {rows scope}

def firstHolding (first second : Outcome Bool) : Outcome Bool := do
  if ← first then return true else second

theorem anyNull_cons (guard : Outcome Value) (rest : List (Outcome Value)) :
    anyNull (guard :: rest) = firstHolding (guard >>= fun value => .ok value.isNull) (anyNull rest) := by
  cases guard <;> rfl

theorem eval_orElse {left right : Expr} {first second : Outcome Bool}
    (isFirst : eval rows scope left = (first >>= fun holds => .ok (.bool holds)))
    (isSecond : eval rows scope right = (second >>= fun holds => .ok (.bool holds))) :
    eval rows scope (.binary .orElse left right) =
      (firstHolding first second >>= fun holds => .ok (.bool holds)) := by
  simp only [eval, isFirst, isSecond]
  cases first with
  | error cause => rfl
  | ok holds => cases holds <;> cases second <;> rfl

theorem firstHolding_assoc (first second third : Outcome Bool) :
    firstHolding (firstHolding first second) third =
      firstHolding first (firstHolding second third) := by
  cases first with
  | error cause => rfl
  | ok holds => cases holds <;> rfl

theorem eval_anyOf {tests : List Expr} {tested : List (Outcome Value)}
    (each : List.Forall₂ (TestsNull rows scope) tests tested) (some_ : tests ≠ []) :
    eval rows scope (Binder.anyOf tests) =
      (anyNull tested >>= fun holds => .ok (.bool holds)) := by
  -- The disjunction grows to the left, so the induction carries what stands before.
  have grows (rest : List Expr) (outcomes : List (Outcome Value)) (start : Expr)
      (before : Outcome Bool) (each : List.Forall₂ (TestsNull rows scope) rest outcomes)
      (first : eval rows scope start = (before >>= fun holds => .ok (.bool holds))) :
      eval rows scope (rest.foldl (fun all test => .binary .orElse all test) start) =
        (firstHolding before (anyNull outcomes) >>= fun holds => .ok (.bool holds)) := by
    induction each generalizing start before with
    | nil =>
      rw [List.foldl_nil, first]
      cases before with
      | error cause => rfl
      | ok holds => cases holds <;> rfl
    | @cons test outcome rest outcomes isTest _ ih =>
      have second : eval rows scope test =
          ((outcome >>= fun value => .ok value.isNull) >>= fun holds => .ok (.bool holds)) := by
        rw [isTest]
        cases outcome <;> rfl
      rw [List.foldl_cons, ih _ _ (eval_orElse first second), firstHolding_assoc, anyNull_cons]
  cases each with
  | nil => exact absurd rfl some_
  | @cons test outcome rest outcomes isTest each =>
    rw [Binder.anyOf, grows rest outcomes test (outcome >>= fun value => .ok value.isNull) each,
      anyNull_cons]
    rw [isTest]
    cases outcome <;> rfl

theorem eval_conditional_anyOf {tests : List Expr} {tested : List (Outcome Value)}
    (each : List.Forall₂ (TestsNull rows scope) tests tested) (some_ : tests ≠ []) (expr : Expr)
    (ty ty' : DataType) :
    eval rows scope (.conditional (Binder.anyOf tests) (.constant .null ty) expr ty') =
      guarded tested (eval rows scope expr) := by
  simp only [eval, eval_anyOf each some_, guarded_eq]
  cases anyNull tested with
  | error cause => rfl
  | ok value => cases value <;> rfl

end Evaluation

open Evaluation

namespace Expr

theorem unlessNull_cons (guard : Expr) (rest : List Expr) (expr : Expr) :
    unlessNull (guard :: rest) expr =
      .conditional (Binder.anyOf ((guard :: rest).map equalsNull)) (.null expr.type.orNull) expr
        expr.type.orNull := by
  simp only [unlessNull, Binder.anyOf, List.map_cons, List.foldl_map]

theorem type_unlessNull (guards : List Expr) (expr : Expr) :
    (unlessNull guards expr).type.nonNull = expr.type.nonNull := by
  cases guards with
  | nil => rfl
  | cons guard rest =>
    rw [unlessNull_cons]
    exact DataType.nonNull_orNull _

theorem eval_unlessNull (rows : List Value) (scope : Scope) (guards : List Expr) (expr : Expr) :
    eval rows scope (unlessNull guards expr) =
      guarded (guards.map (eval rows scope)) (eval rows scope expr) := by
  cases guards with
  | nil => rfl
  | cons guard rest =>
    rw [unlessNull_cons]
    refine eval_conditional_anyOf ?_ (by simp) expr _ _
    rw [List.forall₂_map_left_iff, List.forall₂_map_right_iff]
    exact List.forall₂_same.2 fun guard _ => testsNull_equal rows scope guard guard.type

end Expr

end QueryProjection
