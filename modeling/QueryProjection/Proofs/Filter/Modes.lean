import QueryProjection.Proofs.Filter.Verdicts

set_option autoImplicit false

namespace QueryProjection

open Outcome Evaluation

namespace Evaluation

def Below (outcome outcome' : Outcome Value) : Prop :=
  ∀ value, outcome = .ok value → outcome' = .ok value

namespace Below

variable {outcome outcome' : Outcome Value}

theorem refl (outcome : Outcome Value) : Below outcome outcome :=
  fun _ => id

theorem bind {next next' : Value → Outcome Value} (first : Below outcome outcome')
    (then_ : ∀ value, outcome = .ok value → Below (next value) (next' value)) :
    Below (outcome >>= next) (outcome' >>= next') := by
  intro result computed
  obtain ⟨value, same, later⟩ := bind_eq_ok.1 computed
  rw [first value same, ok_bind]
  exact then_ value same result later

theorem error (cause : Error) (outcome : Outcome Value) : Below (.error cause) outcome := by
  intro value contrary
  contradiction

end Below

end Evaluation

structure Expr.RefinedBy (rows : List Value) (row : Value) (expr expr' : Expr) : Prop where
  below : Below (eval rows [(elementName, row)] expr) (eval rows [(elementName, row)] expr')
  kind : expr.type.scalarKind? = expr'.type.scalarKind?

inductive Operand.RefinedBy (rows : List Value) (row : Value) : Operand → Operand → Prop where
  | typed (role : OperandRole) {expr expr' : Expr} (refined : expr.RefinedBy rows row expr') :
      RefinedBy rows row (.typed role expr) (.typed role expr')
  | literal (value : FilterLiteral) : RefinedBy rows row (.literal value) (.literal value)

namespace Expr.RefinedBy

variable {rows : List Value} {row : Value} {left left' right right' : Expr}

theorem refl (expr : Expr) : expr.RefinedBy rows row expr :=
  ⟨.refl _, rfl⟩

theorem comparison (first : left.RefinedBy rows row left') (second : right.RefinedBy rows row right')
    (comparison : Comparison) :
    (Expr.binary comparison.operator left right).RefinedBy rows row
      (.binary comparison.operator left' right') where
  below := by
    have notAnd : comparison.operator ≠ .andAlso := by cases comparison <;> simp [Comparison.operator]
    have notOr : comparison.operator ≠ .orElse := by cases comparison <;> simp [Comparison.operator]
    rw [eval_comparison notAnd notOr, eval_comparison notAnd notOr]
    exact first.below.bind fun _ _ => second.below.bind fun _ _ => .refl _
  kind := rfl

theorem conjunction (first : left.RefinedBy rows row left')
    (second : right.RefinedBy rows row right') :
    (Expr.binary .andAlso left right).RefinedBy rows row (.binary .andAlso left' right') where
  below := by
    rw [eval_conjunction, eval_conjunction]
    refine first.below.bind fun value _ => ?_
    cases truth value with
    | error cause => exact .error _ _
    | ok holds =>
      cases holds with
      | true => exact second.below.bind fun _ _ => .refl _
      | false => exact .refl _
  kind := rfl

theorem disjunction (first : left.RefinedBy rows row left')
    (second : right.RefinedBy rows row right') :
    (Expr.binary .orElse left right).RefinedBy rows row (.binary .orElse left' right') where
  below := by
    rw [eval_disjunction, eval_disjunction]
    refine first.below.bind fun value _ => ?_
    cases truth value with
    | error cause => exact .error _ _
    | ok holds =>
      cases holds with
      | true => exact .refl _
      | false => exact second.below.bind fun _ _ => .refl _
  kind := rfl

theorem negation (operand : left.RefinedBy rows row left') :
    (Expr.negation left).RefinedBy rows row (.negation left') where
  below := by
    simp only [eval]
    exact operand.below.bind fun _ _ => .refl _
  kind := rfl

theorem isTextual (refined : left.RefinedBy rows row left') :
    Operand.isTextual left = Operand.isTextual left' := by
  unfold Operand.isTextual
  rw [refined.kind]

end Expr.RefinedBy

namespace Operand

variable {rows : List Value} {row : Value} {operand operand' other other' : Operand}

theorem typedAs_refined (offset : Int) {ty ty' : DataType} (kind : ty.scalarKind? = ty'.scalarKind?)
    (literal : FilterLiteral) :
    Related (Expr.RefinedBy rows row) (literal.typedAs offset ty) (literal.typedAs offset ty') := by
  unfold FilterLiteral.typedAs
  rw [← kind]
  split
  next => exact .ok ⟨.refl _, kind⟩
  next => exact .bind (Agree.refl _) fun _ _ same => same ▸ .ok (.refl _)
  next => exact .failed _ _

theorem RefinedBy.asCondition (refined : operand.RefinedBy rows row operand') :
    Related (Expr.RefinedBy rows row) operand.asCondition operand'.asCondition := by
  cases refined with
  | typed role refined =>
    cases role with
    | member =>
      exact .bind (requireBoolean_agree refined.kind) fun _ _ _ =>
        .ok (refined.comparison (.refl _) .eq)
    | call => exact .bind (requireBoolean_agree refined.kind) fun _ _ _ => .ok refined
    | condition => exact .ok refined
  | literal value =>
    cases value with
    | bool verdict => exact .ok (.refl _)
    | _ => exact .failed _ _

theorem RefinedBy.asText (offset : Int) (refined : operand.RefinedBy rows row operand') :
    Related (Expr.RefinedBy rows row) (operand.asText offset) (operand'.asText offset) := by
  cases refined with
  | typed role refined =>
    simp only [Operand.asText, refined.isTextual]
    split
    next => exact .ok refined
    next => exact .failed _ _
  | literal value => exact typedAs_refined offset rfl value

theorem RefinedBy.asTarget (offset : Int) (refined : operand.RefinedBy rows row operand') :
    Related (Expr.RefinedBy rows row) (operand.asTarget offset) (operand'.asTarget offset) := by
  cases refined with
  | typed role refined => exact .ok refined
  | literal value => exact (Agree.refl _).mono fun expr _ same => same ▸ .refl expr

theorem RefinedBy.aligned (offset : Int) (refined : operand.RefinedBy rows row operand')
    (refinedOther : other.RefinedBy rows row other') :
    Related (fun pair pair' => pair.1.RefinedBy rows row pair'.1 ∧ pair.2.RefinedBy rows row pair'.2)
      (operand.aligned offset other) (operand'.aligned offset other') := by
  cases refined with
  | typed role refined =>
    cases refinedOther with
    | typed role' refinedOther => exact .ok ⟨refined, refinedOther⟩
    | literal value =>
      exact .bind (typedAs_refined offset refined.kind value) fun _ _ typed => .ok ⟨refined, typed⟩
  | literal value =>
    cases refinedOther with
    | typed role' refinedOther =>
      exact .bind (typedAs_refined offset refinedOther.kind value) fun _ _ typed =>
        .ok ⟨typed, refinedOther⟩
    | literal value' =>
      exact (Agree.refl _).mono fun pair _ same => same ▸ ⟨.refl pair.1, .refl pair.2⟩

end Operand

namespace Binder

variable {rows : List Value} {row : Value}

def propagating (binder : Binder) (propagates : Bool) : Binder :=
  ⟨binder.schema, binder.elementType, ⟨propagates, binder.context.timeZone⟩⟩

variable (binder : Binder)

theorem memberSteps_refined (path : String) (previous : Option String) (guards : List Expr)
    (current : Expr) (segments : List String)
    (reached : ∀ value, eval rows [(elementName, row)] current = .ok value → ∀ last,
      guarded (guards.map (eval rows [(elementName, row)])) last = last) :
    Related (Expr.RefinedBy rows row)
      ((binder.propagating false).memberSteps path previous [] current segments)
      ((binder.propagating true).memberSteps path previous guards current segments) := by
  induction segments generalizing previous guards current with
  | nil =>
    refine .ok ⟨?_, ?_⟩
    · intro value computed
      rw [Expr.eval_unlessNull, reached value computed]
      exact computed
    · unfold DataType.scalarKind?
      rw [Expr.type_unlessNull, Expr.type_unlessNull]
  | cons segment rest ih =>
    simp only [memberSteps]
    split
    next => exact .failed _ _
    next =>
      split
      next typeName _ =>
        refine .bind (Agree.refl _) fun member _ same => ?_
        subst same
        simp only [propagating, Bool.and_false, Bool.false_eq_true, if_false, Bool.and_true]
        -- What a member is read from is no null, so that it passes as a guard as well.
        have isRead : ∀ value,
            eval rows [(elementName, row)] (.member current member.name member.ty) = .ok value →
            ∃ record, eval rows [(elementName, row)] current = .ok record ∧ record.isNull = false := by
          intro value computed
          simp only [eval, bind_eq_ok] at computed
          obtain ⟨record, isRecord, read⟩ := computed
          refine ⟨record, isRecord, ?_⟩
          cases record <;> first | rfl | simp [readMember, fault] at read
        refine ih (some segment) _ _ fun value computed last => ?_
        obtain ⟨record, isRecord, present⟩ := isRead value computed
        split
        next =>
          rw [List.map_append, List.map_singleton, guarded_append, reached record isRecord, isRecord]
          simp [present]
        next => exact reached record isRecord last
      next => exact .failed _ _

theorem memberPath_refined (path : String) :
    Related (Expr.RefinedBy rows row) ((binder.propagating false).memberPath path)
      ((binder.propagating true).memberPath path) := by
  unfold memberPath
  split
  next => exact .failed _ _
  next => exact binder.memberSteps_refined path none [] _ _ fun _ _ _ => rfl

theorem present_of_applyFunction {function : TextFunction} {value result : Value}
    {others : List Value} (applied : applyFunction function (value :: others) = .ok result) :
    value.isNull = false := by
  simp only [applyFunction, bind_eq_ok] at applied
  obtain ⟨text, isFirst, -⟩ := applied
  have isText : value.asText? = some text := textArgument_eq_ok isFirst
  cases value <;> first | rfl | cases isText

theorem valueCall_refined (function : TextFunction) {text text' : Expr}
    (refined : text.RefinedBy rows row text') :
    ((binder.propagating false).valueCall function text).RefinedBy rows row
      ((binder.propagating true).valueCall function text') where
  below := by
    have calls : Below (eval rows [(elementName, row)] (.function function [text]))
        (eval rows [(elementName, row)] (.function function [text'])) := by
      rw [eval_unary, eval_unary]
      exact refined.below.bind fun _ _ => .refl _
    show Below (eval rows _ (.function function [text])) _
    unfold valueCall
    dsimp only
    split
    next =>
      -- The call has a result, so its text is no null and the guard lets it pass.
      intro result computed
      have same := calls result computed
      rw [eval_unary] at computed
      obtain ⟨value, isText, applied⟩ := bind_eq_ok.1 computed
      rw [eval_unlessNullOperand, refined.below value isText, ok_bind,
        present_of_applyFunction applied]
      exact same
    next => exact calls
  kind := by rw [type_valueCall, type_valueCall]

theorem testCall_refined {function : TextFunction} (pair : arity function = 2)
    {text text' other other' : Expr} (refined : text.RefinedBy rows row text')
    (refinedOther : other.RefinedBy rows row other') :
    ((binder.propagating false).testCall function text other).RefinedBy rows row
      ((binder.propagating true).testCall function text' other') where
  below := by
    have calls : Below (eval rows [(elementName, row)] (.function function [text, other]))
        (eval rows [(elementName, row)] (.function function [text', other'])) := by
      rw [eval_pair, eval_pair]
      exact refined.below.bind fun _ _ => refinedOther.below.bind fun _ _ => .refl _
    show Below (eval rows _ (.function function [text, other])) _
    unfold testCall
    dsimp only
    split
    next =>
      intro result computed
      have same := calls result computed
      rw [eval_pair] at computed
      obtain ⟨value, isText, value', -, applied⟩ := by
        simpa only [bind_eq_ok] using computed
      obtain ⟨verdict, isVerdict⟩ :=
        TextFunction.resultOn_test pair value.asText? value'.asText?
      obtain rfl : result = .bool verdict :=
        (applyFunction_pair_only pair value value' result applied).trans isVerdict
      rw [eval_unlessNullTest, refined.below value isText, ok_bind,
        present_of_applyFunction applied, same]
      rfl
    next => exact calls
  kind := by rw [type_testCall pair, type_testCall pair]

theorem choiceTests_refined {target target' : Expr} (refined : target.RefinedBy rows row target')
    (choices : List Filter) :
    Related (List.Forall₂ (Expr.RefinedBy rows row))
      ((binder.propagating false).choiceTests target choices)
      ((binder.propagating true).choiceTests target' choices) := by
  induction choices with
  | nil => exact .ok .nil
  | cons choice rest ih =>
    cases choice with
    | literal literal =>
      simp only [choiceTests]
      exact .bind (Operand.typedAs_refined binder.offset refined.kind literal) fun _ _ typed =>
        .bind ih fun _ _ later => .ok (.cons (refined.comparison typed .eq) later)
    | _ => exact .failed _ _

theorem anyOf_refined {tests tests' : List Expr}
    (each : List.Forall₂ (Expr.RefinedBy rows row) tests tests') :
    (anyOf tests).RefinedBy rows row (anyOf tests') :=
  anyOf_related (.refl _) (fun first second => first.disjunction second) each

theorem operand_refined (rows : List Value) (row : Value) (filter : Filter) :
    Related (Operand.RefinedBy rows row) ((binder.propagating false).operand filter)
      ((binder.propagating true).operand filter) := by
  -- Both binders take the same steps; they part only where a member or a call is guarded.
  match filter with
  | .both left right =>
    simp only [Binder.operand]
    exact .bind (operand_refined rows row left) fun _ _ first =>
      .bind first.asCondition fun _ _ test =>
      .bind (operand_refined rows row right) fun _ _ second =>
      .bind second.asCondition fun _ _ test' => .ok (.typed _ (test.conjunction test'))
  | .either left right =>
    simp only [Binder.operand]
    exact .bind (operand_refined rows row left) fun _ _ first =>
      .bind first.asCondition fun _ _ test =>
      .bind (operand_refined rows row right) fun _ _ second =>
      .bind second.asCondition fun _ _ test' => .ok (.typed _ (test.disjunction test'))
  | .negation inner =>
    simp only [Binder.operand]
    exact .bind (operand_refined rows row inner) fun _ _ first =>
      .bind first.asCondition fun _ _ test => .ok (.typed _ test.negation)
  | .compare left comparison right =>
    simp only [Binder.operand]
    exact .bind (operand_refined rows row left) fun _ _ first =>
      .bind (operand_refined rows row right) fun _ _ second =>
      .bind (first.aligned binder.offset second) fun _ _ pair =>
      .ok (.typed _ (pair.1.comparison pair.2 comparison))
  | .oneOf inner choices =>
    simp only [Binder.operand]
    exact .bind (operand_refined rows row inner) fun _ _ first =>
      .bind (first.asTarget binder.offset) fun _ _ target =>
      .bind (binder.choiceTests_refined target choices) fun _ _ each =>
      .ok (.typed _ (anyOf_refined each))
  | .function name [target] =>
    simp only [Binder.operand]
    exact .bind (Agree.refl _) fun function _ same => same ▸
      .bind (operand_refined rows row target) fun _ _ first =>
      .bind (first.asText binder.offset) fun _ _ text =>
      .ok (.typed _ (binder.valueCall_refined function text))
  | .function name [target, argument] =>
    simp only [Binder.operand]
    cases called : requireArity name 2 with
    | error cause => exact .failed _ _
    | ok function =>
      simp only [ok_bind]
      exact .bind (operand_refined rows row target) fun _ _ first =>
        .bind (first.asText binder.offset) fun _ _ text =>
        .bind (operand_refined rows row argument) fun _ _ second =>
        .bind (second.asText binder.offset) fun _ _ other =>
        .ok (.typed _ (binder.testCall_refined (requireArity_eq_ok.1 called).2 text other))
  | .function name [] | .function name (_ :: _ :: _ :: _) =>
    simp only [Binder.operand]
    split
    next => exact .failed _ _
    next => exact .failed _ _
  | .member path =>
    simp only [Binder.operand]
    exact .bind (binder.memberPath_refined path) fun _ _ refined => .ok (.typed _ refined)
  | .literal value =>
    simp only [Binder.operand]
    exact .ok (.literal value)
termination_by filter

end Binder

/-- Bound either way, a filter means what it says: its value on a row is the truth value that the
filter has there, if it has any value. Guards against null reject no filter and take no value away. -/
theorem Filter.valueOn_of_bind_either (schema : Schema) (elementType : String) (filter : Filter)
    (timeZone : Option Int) :
    ((∃ plain, filter.bind schema elementType ⟨false, timeZone⟩ = .ok plain) ↔
        ∃ guarding, filter.bind schema elementType ⟨true, timeZone⟩ = .ok guarding) ∧
      ∀ (rows : List Value) (row value : Value),
        (∀ (propagates : Bool) (predicate : Lambda),
          filter.bind schema elementType ⟨propagates, timeZone⟩ = .ok predicate →
          predicate.valueOn rows row = .ok value →
            value = .bool (FilterReading.holds ⟨schema, elementType, timeZone.getD 0, row⟩ filter)) ∧
        ∀ plain guarding : Lambda,
          filter.bind schema elementType ⟨false, timeZone⟩ = .ok plain →
          filter.bind schema elementType ⟨true, timeZone⟩ = .ok guarding →
          plain.valueOn rows row = .ok value → guarding.valueOn rows row = .ok value := by
  have refined (rows : List Value) (row : Value) :
      Related (fun plain guarding : Lambda =>
          ∀ value, plain.valueOn rows row = .ok value → guarding.valueOn rows row = .ok value)
        (filter.bind schema elementType ⟨false, timeZone⟩)
        (filter.bind schema elementType ⟨true, timeZone⟩) := by
    unfold Filter.bind Binder.predicate
    exact .bind (Agree.refl _) fun _ _ _ =>
      .bind (.bind (Binder.operand_refined ⟨schema, elementType, ⟨false, timeZone⟩⟩ rows row filter)
        fun _ _ operand => operand.asCondition) fun _ _ condition => .ok condition.below
  refine ⟨(refined [] .null).exists_iff, fun rows row value => ⟨?_, ?_⟩⟩
  · intro propagates predicate bound
    simp only [Filter.bind, Binder.predicate, Outcome.bind_eq_ok, pure_eq_ok] at bound
    obtain ⟨-, -, body, ⟨operand, isOperand, condition⟩, rfl⟩ := bound
    exact Binder.asCondition_means ((Binder.operand_eq_ok.1 isOperand).means rows row) condition value
  · intro plain guarding isPlain isGuarding
    have both := refined rows row
    rw [isPlain, isGuarding] at both
    cases both with
    | ok below => exact below value

theorem Filter.valueOn_of_bind_either_strayPet :
    ∃ predicate row value, ownedOrNicked.bind petSchema "Pet" ⟨true, none⟩ = .ok predicate ∧
      Value.ofJson petSchema strayPet (.named "Pet") = .ok row ∧
      predicate.valueOn [] row = .ok value ∧
      value = .bool (FilterReading.holds ⟨petSchema, "Pet", 0, row⟩ ownedOrNicked) := by
  obtain ⟨predicate, bound, computes⟩ := exists_of_toOption_any
    (ownedOrNicked.bind petSchema "Pet" ⟨true, none⟩)
    (fun predicate => (Value.ofJson petSchema strayPet (.named "Pet")).toOption.any fun row =>
      (predicate.valueOn [] row).toOption.any fun _ => true) (by rfl)
  obtain ⟨row, isRow, computes⟩ := exists_of_toOption_any
    (Value.ofJson petSchema strayPet (.named "Pet"))
    (fun row => (predicate.valueOn [] row).toOption.any fun _ => true) computes
  obtain ⟨value, isValue, -⟩ := exists_of_toOption_any _ _ computes
  have means := Filter.valueOn_of_bind_either petSchema "Pet" ownedOrNicked none
  exact ⟨predicate, row, value, bound, isRow, isValue,
    (means.2 [] row value).1 true predicate bound isValue⟩

end QueryProjection
