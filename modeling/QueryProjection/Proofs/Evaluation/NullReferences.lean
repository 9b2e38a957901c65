import QueryProjection.Proofs.Evaluation.Guards

set_option autoImplicit false

namespace QueryProjection

open Outcome

def Value.IsText (isNull : Bool) (value : Value) : Prop :=
  if isNull then value = .null else ∃ text, value.asText? = some text

def Value.IsTruth (value : Value) : Prop := ∃ verdict, value = .bool verdict

namespace Value

variable {value : Value} {isNull : Bool}

theorem eq_null_of_isText (isText : value.IsText isNull)
    (null_ : ¬ isNull = false) : value = .null := by
  simpa [Value.IsText, null_] using isText

theorem isNull_of_isText (isText : value.IsText isNull) : value.isNull = isNull := by
  by_cases present : isNull = false
  · subst present
    obtain ⟨text, isText⟩ := isText
    cases value <;> simp [Value.asText?, Value.isNull] at isText ⊢
  · rw [eq_null_of_isText isText present, eq_true_of_ne_false present]
    rfl

end Value

namespace TextFunction

variable {function : TextFunction}

theorem resultType_of_pair (pair : Binder.arity function = 2) :
    function.resultType = .scalar .boolean := by
  cases function with
  | toLower | toUpper | length => simp [Binder.arity] at pair
  | contains | startsWith | endsWith => rfl

theorem not_boolean_of_unary (unary : Binder.arity function = 1) :
    function.resultType.scalarKind? ≠ some .boolean := by
  cases function with
  | contains | startsWith | endsWith => simp [Binder.arity] at unary
  | toLower | toUpper | length => simp [resultType, DataType.scalarKind?, DataType.nonNull]

end TextFunction

namespace Evaluation

def MetNull (outcome : Outcome Value) : Prop :=
  ∃ function : TextFunction,
    outcome = .error (.evaluation ("null reference in " ++ function.name))

structure YieldsIf (safe : Prop) (outcome : Outcome Value) (suits : Value → Prop) :
    Prop where
  value : safe → ∃ value, outcome = .ok value ∧ suits value
  metNull : ¬ safe → MetNull outcome

namespace YieldsIf

variable {safe safe' : Prop} {outcome outcome' : Outcome Value} {suits suits' : Value → Prop}

theorem of_ok {value : Value} (yields : outcome = .ok value) (suitable : suits value) :
    YieldsIf True outcome suits where
  value _ := ⟨value, yields, suitable⟩
  metNull unsafe_ := absurd trivial unsafe_

theorem holds_of_ok {value : Value} (yields : YieldsIf safe outcome suits)
    (same : outcome = .ok value) : safe := by
  by_contra unsafe_
  obtain ⟨function, failed⟩ := yields.metNull unsafe_
  rw [same] at failed
  contradiction

theorem mono (yields : YieldsIf safe outcome suits) (weaker : ∀ value, suits value → suits' value) :
    YieldsIf safe outcome suits' where
  value safe :=
    let ⟨held, same, suitable⟩ := yields.value safe
    ⟨held, same, weaker held suitable⟩
  metNull := yields.metNull

theorem congr (yields : YieldsIf safe outcome suits) (same : safe ↔ safe') :
    YieldsIf safe' outcome suits where
  value safe := yields.value (same.2 safe)
  metNull unsafe_ := yields.metNull (fun safe => unsafe_ (same.1 safe))

theorem bind {next : Value → Outcome Value} (first : YieldsIf safe outcome suits)
    (then_ : ∀ value, outcome = .ok value → suits value → YieldsIf safe' (next value) suits') :
    YieldsIf (safe ∧ safe') (outcome >>= next) suits' where
  value both := by
    obtain ⟨held, same, suitable⟩ := first.value both.1
    obtain ⟨result, same', suitable'⟩ := (then_ held same suitable).value both.2
    exact ⟨result, by rw [same, ok_bind, same'], suitable'⟩
  metNull unsafe_ := by
    by_cases isSafe : safe
    · obtain ⟨held, same, suitable⟩ := first.value isSafe
      rw [same, ok_bind]
      exact (then_ held same suitable).metNull fun safe' => unsafe_ ⟨isSafe, safe'⟩
    · obtain ⟨function, same⟩ := first.metNull isSafe
      exact ⟨function, by rw [same, error_bind]⟩

theorem map {next : Value → Outcome Value} (first : YieldsIf safe outcome suits)
    (then_ : ∀ value, suits value → ∃ result, next value = .ok result ∧ suits' result) :
    YieldsIf safe (outcome >>= next) suits' := by
  have second (value : Value) (suitable : suits value) : YieldsIf True (next value) suits' :=
    let ⟨_, same, suitable'⟩ := then_ value suitable
    of_ok same suitable'
  exact (first.bind fun value _ => second value).congr (and_iff_left trivial)

theorem verdict (yields : YieldsIf safe outcome Value.IsTruth) (holds : safe) :
    ∃ verdict, outcome = .ok (.bool verdict) := by
  obtain ⟨value, same, verdict, rfl⟩ := yields.value holds
  exact ⟨verdict, same⟩

end YieldsIf

variable {rows : List Value}

theorem eval_comparison {operator : BinaryOperator} {scope : Scope} {left right : Expr}
    (notAnd : operator ≠ .andAlso) (notOr : operator ≠ .orElse) :
    eval rows scope (.binary operator left right) = (do
      let value ← eval rows scope left
      return .bool (compareBy operator value (← eval rows scope right))) := by
  cases operator <;> first | rfl | contradiction

theorem eval_conjunction (scope : Scope) (left right : Expr) :
    eval rows scope (.binary .andAlso left right) = (do
      if ← truth (← eval rows scope left) then
        return .bool (← truth (← eval rows scope right))
      else return .bool false) := by
  simp only [eval]

theorem eval_disjunction (scope : Scope) (left right : Expr) :
    eval rows scope (.binary .orElse left right) = (do
      if ← truth (← eval rows scope left) then return .bool true
      else return .bool (← truth (← eval rows scope right))) := by
  simp only [eval]

theorem textArgument_of_isText {value : Value} (values : List Value) (index : Nat)
    (held : values[index]? = some value) (isText : value.IsText false) (function : TextFunction) :
    ∃ text, textArgument values index function = .ok text := by
  obtain ⟨text, isText⟩ := isText
  unfold textArgument
  rw [held]
  cases value <;> simp [Value.asText?] at isText ⊢

theorem applyFunction_null (function : TextFunction) (values : List Value) :
    MetNull (applyFunction function (.null :: values)) := by
  refine ⟨function, ?_⟩
  simp only [applyFunction, textArgument, List.getElem?_cons_zero]
  rfl

def TextResult (function : TextFunction) (isNull : Bool) (value : Value) : Prop :=
  function.resultType ≠ .scalar .int32 → value.IsText isNull

theorem applyFunction_unary {function : TextFunction} {value : Value} {isNull : Bool}
    (unary : Binder.arity function = 1) (isText : value.IsText isNull) :
    YieldsIf (isNull = false) (applyFunction function [value]) (TextResult function isNull) := by
  constructor
  · rintro rfl
    obtain ⟨text, isFirst⟩ :=
      textArgument_of_isText [value] 0 rfl isText function
    cases function with
    | contains | startsWith | endsWith => simp [Binder.arity] at unary
    | toLower | toUpper =>
      simp only [applyFunction, isFirst, ok_bind]
      exact ⟨_, rfl, fun _ => ⟨_, rfl⟩⟩
    | length =>
      simp only [applyFunction, isFirst, ok_bind]
      exact ⟨_, rfl, fun other => absurd rfl other⟩
  · intro null_
    rw [Value.eq_null_of_isText isText null_]
    exact applyFunction_null function []

theorem applyFunction_pair {function : TextFunction} {value other : Value} {isNull isNull' : Bool}
    (pair : Binder.arity function = 2) (isText : value.IsText isNull) (isOther : other.IsText isNull') :
    YieldsIf (isNull = false ∧ isNull' = false) (applyFunction function [value, other])
      Value.IsTruth := by
  by_cases present : isNull = false
  · subst present
    obtain ⟨text, isFirst⟩ :=
      textArgument_of_isText [value, other] 0 rfl isText function
    constructor
    · rintro ⟨-, rfl⟩
      obtain ⟨text', isSecond⟩ :=
        textArgument_of_isText [value, other] 1 rfl isOther function
      cases function with
      | toLower | toUpper | length => simp [Binder.arity] at pair
      | contains | startsWith | endsWith =>
        simp only [applyFunction, isFirst, isSecond, ok_bind]
        exact ⟨_, rfl, _, rfl⟩
    · -- The first text is present, so it is the second one that is missing.
      intro null_
      obtain rfl := Value.eq_null_of_isText isOther fun present => null_ ⟨rfl, present⟩
      refine ⟨function, ?_⟩
      cases function with
      | toLower | toUpper | length => simp [Binder.arity] at pair
      | contains | startsWith | endsWith =>
        simp only [applyFunction, isFirst, ok_bind]
        rfl
  · refine ⟨fun both => absurd both.1 present, fun _ => ?_⟩
    rw [Value.eq_null_of_isText isText present]
    exact applyFunction_null function [other]

theorem eval_unary (called : TextFunction) (scope : Scope) (text : Expr) :
    eval rows scope (.function called [text]) =
      (eval rows scope text >>= fun value => applyFunction called [value]) := by
  simp only [eval, evalAll]
  cases eval rows scope text <;> rfl

theorem eval_pair (called : TextFunction) (scope : Scope) (text other : Expr) :
    eval rows scope (.function called [text, other]) =
      (eval rows scope text >>= fun value =>
        eval rows scope other >>= fun value' => applyFunction called [value, value']) := by
  simp only [eval, evalAll]
  cases eval rows scope text with
  | error cause => rfl
  | ok value => cases eval rows scope other <;> rfl

theorem eval_unlessNullOperand (scope : Scope) (operand expr : Expr) (ty ty' : DataType) :
    eval rows scope (.conditional operand.equalsNull (.null ty) expr ty') =
      (eval rows scope operand >>= fun value =>
        if value.isNull then .ok .null else eval rows scope expr) := by
  have isTest := testsNull_equal rows scope operand operand.type
  rw [TestsNull] at isTest
  simp only [eval, Expr.equalsNull, Expr.null, isTest]
  cases eval rows scope operand <;> rfl

theorem eval_unlessNullTest (scope : Scope) (operand expr : Expr) (ty : DataType) :
    eval rows scope (.binary .andAlso (.binary .ne operand (.null ty)) expr) =
      (eval rows scope operand >>= fun value =>
        if value.isNull then .ok (.bool false)
        else eval rows scope expr >>= fun verdict =>
          truth verdict >>= fun holds => .ok (.bool holds)) := by
  rw [eval_conjunction, eval_comparison (by simp) (by simp)]
  simp only [eval, Expr.null]
  cases eval rows scope operand with
  | error cause => rfl
  | ok value =>
    simp only [ok_bind, compareBy, equals_null]
    cases value.isNull <;> rfl

end Evaluation

end QueryProjection
