import QueryProjection.Proofs.Evaluation.Arrangement
import QueryProjection.Proofs.Evaluation.NullReferences
import QueryProjection.Proofs.Filter.Binding
import QueryProjection.Proofs.Filter.Reading

set_option autoImplicit false

namespace QueryProjection

open Outcome Evaluation
def Filter.isNullOn (row : Value) : Filter → Bool
  | .member path => (row.along (Text.pathSegments path)).isNull
  | .function _ [target] => target.isNullOn row
  | .literal value => value == .null
  | _ => false

mutual

/-- Functions on text are applied to members, or to functions of these, and compare them with literal
text only. -/
def Filter.TestsLiterals : Filter → Prop
  | .both left right | .either left right => left.TestsLiterals ∧ right.TestsLiterals
  | .negation operand | .oneOf operand _ => operand.TestsLiterals
  | .compare left _ right => left.TestsLiterals ∧ right.TestsLiterals
  | .function _ arguments => ArgumentsTestLiterals arguments
  | .member _ | .literal _ => True

def Filter.ArgumentsTestLiterals : List Filter → Prop
  | [] => True
  | target :: rest => target.TestsLiterals ∧ target ≠ .literal .null ∧
      ∀ argument ∈ rest, ∃ literal, argument = .literal literal ∧ literal ≠ .null

end

namespace Binder

variable {binder : Binder} {rows : List Value} {row : Value}

def verdictOn (binder : Binder) (rows : List Value) (row : Value) (filter : Filter) :
    Outcome Value := do
  eval rows [(elementName, row)] (← binder.predicate filter)

/-- No function on text that the evaluation arrives at has a null operand without a guard. -/
def NullSafe (binder : Binder) (rows : List Value) (row : Value) : Filter → Prop
  | .both left right => binder.NullSafe rows row left ∧
      (binder.verdictOn rows row left = .ok (.bool true) → binder.NullSafe rows row right)
  | .either left right => binder.NullSafe rows row left ∧
      (binder.verdictOn rows row left = .ok (.bool false) → binder.NullSafe rows row right)
  | .negation operand => binder.NullSafe rows row operand
  | .compare left _ right => binder.NullSafe rows row left ∧ binder.NullSafe rows row right
  | .oneOf operand choices => choices = [] ∨ binder.NullSafe rows row operand
  | .function _ [target] => binder.NullSafe rows row target ∧ target ≠ .literal .null
  | .function _ [target, argument] =>
      binder.NullSafe rows row target ∧ target ≠ .literal .null ∧
        (target.isNullOn row = false →
          binder.NullSafe rows row argument ∧ argument.isNullOn row = false)
  | _ => True

structure OperandYields (binder : Binder) (rows : List Value) (row : Value) (filter : Filter)
    (role : OperandRole) (expr : Expr) : Prop where
  yields : YieldsIf (binder.NullSafe rows row filter) (eval rows [(elementName, row)] expr) fun value =>
    (role = .condition → value.IsTruth) ∧
    (role = .call → expr.type.scalarKind? = some .boolean → value.IsTruth) ∧
    (Operand.isTextual expr = true → value.IsText (filter.isNullOn row))
  computed : Operand.isTextual expr = true → expr.isConstant = false
  notLiteral : ∀ literal, filter ≠ .literal literal

def OperandReads (binder : Binder) (rows : List Value) (row : Value) (filter : Filter) :
    Operand → Prop
  | .typed role expr => binder.OperandYields rows row filter role expr
  | .literal value => filter = .literal value

theorem typedAs_isText {offset : Int} {literal : FilterLiteral} {expr : Expr}
    (typed : literal.typedAs offset (.scalar .string) = .ok expr) :
    ∃ value ty, expr = .constant value ty ∧ value.IsText (literal == .null) := by
  cases literal with
  | null => exact ⟨.null, _, (Except.ok.inj typed).symm, rfl⟩
  | string text => exact ⟨.string text, _, (Except.ok.inj typed).symm, text, rfl⟩
  | bool _ | number _ | uuid _ | dateTime _ | date _ | time _ =>
    simp [FilterLiteral.typedAs, DataType.scalarKind?, DataType.nonNull, FilterLiteral.coerce,
      FilterLiteral.mismatch] at typed

theorem asCondition_yields {filter : Filter} {operand : Operand} {expr : Expr}
    (reads : binder.OperandReads rows row filter operand)
    (condition : operand.asCondition = .ok expr) :
    YieldsIf (binder.NullSafe rows row filter) (eval rows [(elementName, row)] expr)
      Value.IsTruth := by
  cases Operand.isCondition_of_asCondition condition with
  | member _ =>
    rw [eval_comparison (by simp) (by simp)]
    exact reads.yields.map fun value _ => ⟨_, rfl, _, rfl⟩
  | call boolean => exact reads.yields.mono fun value suits => suits.2.1 rfl boolean
  | condition _ => exact reads.yields.mono fun value suits => suits.1 rfl
  | literal verdict =>
    obtain rfl : filter = _ := reads
    exact (YieldsIf.of_ok rfl ⟨verdict, rfl⟩).congr (by simp [NullSafe])

theorem asTarget_yields {filter : Filter} {operand : Operand} {offset : Int} {expr : Expr}
    (reads : binder.OperandReads rows row filter operand)
    (target : operand.asTarget offset = .ok expr) :
    YieldsIf (binder.NullSafe rows row filter) (eval rows [(elementName, row)] expr)
      fun _ => True := by
  unfold Operand.asTarget at target
  split at target
  next =>
    obtain rfl := Except.ok.inj target
    exact reads.yields.mono fun _ _ => trivial
  next =>
    obtain ⟨value, ty, rfl⟩ := typedNaturally_constant target
    obtain rfl : filter = _ := reads
    exact (YieldsIf.of_ok rfl trivial).congr (by simp [NullSafe])

theorem literal_yields {offset : Int} {ty : DataType} {literal : FilterLiteral} {expr : Expr}
    (typed : literal.typedAs offset ty = .ok expr) :
    YieldsIf (binder.NullSafe rows row (.literal literal)) (eval rows [(elementName, row)] expr)
      fun _ => True := by
  obtain ⟨value, ty, rfl⟩ := typedAs_constant typed
  exact (YieldsIf.of_ok rfl trivial).congr (by simp [NullSafe])

theorem aligned_yields {left right : Filter} {first second : Operand} {offset : Int}
    {expr expr' : Expr} (readsLeft : binder.OperandReads rows row left first)
    (readsRight : binder.OperandReads rows row right second)
    (aligned : first.aligned offset second = .ok (expr, expr')) :
    YieldsIf (binder.NullSafe rows row left) (eval rows [(elementName, row)] expr)
        (fun _ => True) ∧
      YieldsIf (binder.NullSafe rows row right) (eval rows [(elementName, row)] expr')
        fun _ => True := by
  cases Operand.aligned_of_eq_ok aligned with
  | typed role role' _ _ =>
    exact ⟨readsLeft.yields.mono fun _ _ => trivial, readsRight.yields.mono fun _ _ => trivial⟩
  | right role isTyped =>
    obtain rfl : right = _ := readsRight
    exact ⟨readsLeft.yields.mono fun _ _ => trivial, literal_yields isTyped⟩
  | left role isTyped =>
    obtain rfl : left = _ := readsLeft
    exact ⟨literal_yields isTyped, readsRight.yields.mono fun _ _ => trivial⟩
  | literals isTyped isTyped' =>
    exact ⟨asTarget_yields readsLeft isTyped, asTarget_yields readsRight isTyped'⟩

theorem asText_yields {filter : Filter} {operand : Operand} {offset : Int} {expr : Expr}
    (reads : binder.OperandReads rows row filter operand) (text : operand.asText offset = .ok expr) :
    YieldsIf (binder.NullSafe rows row filter) (eval rows [(elementName, row)] expr)
        (Value.IsText (filter.isNullOn row)) ∧
      (expr.isConstant = true ↔ ∃ literal, filter = .literal literal) := by
  cases Operand.isText_of_asText text with
  | typed role textual =>
    refine ⟨reads.yields.mono fun value suits => suits.2.2 textual, ?_⟩
    simp [reads.computed textual, reads.notLiteral]
  | literal isTyped =>
    obtain ⟨value, ty, rfl, isText⟩ := typedAs_isText isTyped
    obtain rfl : filter = _ := reads
    refine ⟨(YieldsIf.of_ok rfl isText).congr (by simp [NullSafe]), ?_⟩
    simp [Expr.isConstant]

theorem valueCall_yields (propagates : binder.context.nullPropagation = true)
    {filter : Filter} {text : Expr} {function : TextFunction} (unary : arity function = 1)
    (reads : YieldsIf (binder.NullSafe rows row filter) (eval rows [(elementName, row)] text)
      (Value.IsText (filter.isNullOn row)))
    (constant : text.isConstant = true ↔ ∃ literal, filter = .literal literal) :
    YieldsIf (binder.NullSafe rows row filter ∧ filter ≠ .literal .null)
      (eval rows [(elementName, row)] (binder.valueCall function text))
      (TextResult function (filter.isNullOn row)) := by
  unfold valueCall
  by_cases isConstant : text.isConstant = true
  · -- A literal is not guarded.
    obtain ⟨literal, rfl⟩ := constant.1 isConstant
    simp only [mayBeNull, isConstant, Bool.not_true, Bool.and_false, Bool.false_eq_true, if_false]
    rw [eval_unary]
    refine (reads.bind fun value _ isText => applyFunction_unary unary isText).congr ?_
    simp [Filter.isNullOn]
  · have notLiteral : filter ≠ .literal .null := fun same => isConstant (constant.2 ⟨_, same⟩)
    simp only [mayBeNull, propagates, isConstant, Bool.not_false, Bool.and_self, if_true]
    rw [eval_unlessNullOperand]
    refine (reads.bind fun value same isText => (?_ : YieldsIf True _ _)).congr (by simp [notLiteral])
    rw [Value.isNull_of_isText isText]
    by_cases present : filter.isNullOn row = false
    · simp only [present, Bool.false_eq_true, if_false, eval_unary, same, ok_bind]
      rw [present] at isText
      exact (applyFunction_unary unary isText).congr (by simp)
    · have null_ := eq_true_of_ne_false present
      simp only [null_, if_true]
      exact .of_ok rfl fun _ => rfl

theorem testCall_yields (propagates : binder.context.nullPropagation = true)
    {filter filter' : Filter} {text other : Expr} {function : TextFunction}
    (pair : arity function = 2)
    (reads : YieldsIf (binder.NullSafe rows row filter) (eval rows [(elementName, row)] text)
      (Value.IsText (filter.isNullOn row)))
    (constant : text.isConstant = true ↔ ∃ literal, filter = .literal literal)
    (readsOther : YieldsIf (binder.NullSafe rows row filter')
      (eval rows [(elementName, row)] other) (Value.IsText (filter'.isNullOn row))) :
    YieldsIf (binder.NullSafe rows row filter ∧ filter ≠ .literal .null ∧
        (filter.isNullOn row = false →
          binder.NullSafe rows row filter' ∧ filter'.isNullOn row = false))
      (eval rows [(elementName, row)] (binder.testCall function text other)) Value.IsTruth := by
  have calls (value : Value) (isText : value.IsText (filter.isNullOn row)) :
      YieldsIf (binder.NullSafe rows row filter' ∧ filter.isNullOn row = false ∧
          filter'.isNullOn row = false)
        (eval rows [(elementName, row)] other >>= fun value' =>
          applyFunction function [value, value']) Value.IsTruth :=
    readsOther.bind fun value' _ isOther => applyFunction_pair pair isText isOther
  unfold testCall
  by_cases isConstant : text.isConstant = true
  · -- A literal is called without a guard.
    obtain ⟨literal, rfl⟩ := constant.1 isConstant
    simp only [mayBeNull, isConstant, Bool.not_true, Bool.and_false, Bool.false_eq_true, if_false]
    rw [eval_pair]
    refine (reads.bind fun value _ isText => calls value isText).congr ?_
    by_cases isNull : literal = .null <;> simp [Filter.isNullOn, isNull]
  · have notLiteral : filter ≠ .literal .null := fun same => isConstant (constant.2 ⟨_, same⟩)
    simp only [mayBeNull, propagates, isConstant, Bool.not_false, Bool.and_self, if_true]
    rw [eval_unlessNullTest]
    refine (reads.bind fun value same isText => ?_).congr (by rw [and_iff_right notLiteral])
    rw [Value.isNull_of_isText isText]
    by_cases present : filter.isNullOn row = false
    · simp only [present, Bool.false_eq_true, if_false, eval_pair, same, ok_bind]
      refine ((calls value isText).map ?_).congr (by simp [present])
      rintro - ⟨verdict, rfl⟩
      exact ⟨_, rfl, verdict, rfl⟩
    · -- The guard yields false, and the other text is not looked at.
      have null_ := eq_true_of_ne_false present
      simp only [null_, if_true]
      exact (YieldsIf.of_ok rfl ⟨false, rfl⟩).congr (by simp)

theorem OperandYields.ofCondition {filter : Filter} {expr : Expr}
    (yields : YieldsIf (binder.NullSafe rows row filter) (eval rows [(elementName, row)] expr)
      Value.IsTruth)
    (notText : Operand.isTextual expr = false) (notLiteral : ∀ literal, filter ≠ .literal literal)
    (role : OperandRole) : binder.OperandYields rows row filter role expr where
  yields := yields.mono fun _ isTruth => ⟨fun _ => isTruth, fun _ _ => isTruth, by simp [notText]⟩
  computed := by simp [notText]
  notLiteral := notLiteral

theorem verdictOn_eq {filter : Filter} {operand : Operand} {expr : Expr}
    (bound : binder.operand filter = .ok operand) (condition : operand.asCondition = .ok expr) :
    binder.verdictOn rows row filter = eval rows [(elementName, row)] expr := by
  simp only [verdictOn, predicate, bound, condition, ok_bind]

theorem both_yields {left right : Filter} {first second : Expr}
    (isFirst : binder.verdictOn rows row left = eval rows [(elementName, row)] first)
    (readsLeft : YieldsIf (binder.NullSafe rows row left) (eval rows [(elementName, row)] first)
      Value.IsTruth)
    (readsRight : YieldsIf (binder.NullSafe rows row right) (eval rows [(elementName, row)] second)
      Value.IsTruth) :
    YieldsIf (binder.NullSafe rows row (.both left right))
      (eval rows [(elementName, row)] (.binary .andAlso first second)) Value.IsTruth := by
  rw [eval_conjunction, NullSafe]
  refine readsLeft.bind ?_
  rintro - same ⟨verdict, rfl⟩
  rw [isFirst, same]
  cases verdict with
  | true =>
    refine (readsRight.map ?_).congr (by simp)
    rintro - ⟨verdict, rfl⟩
    exact ⟨_, rfl, verdict, rfl⟩
  | false => exact (YieldsIf.of_ok rfl ⟨false, rfl⟩).congr (by simp)

theorem either_yields {left right : Filter} {first second : Expr}
    (isFirst : binder.verdictOn rows row left = eval rows [(elementName, row)] first)
    (readsLeft : YieldsIf (binder.NullSafe rows row left) (eval rows [(elementName, row)] first)
      Value.IsTruth)
    (readsRight : YieldsIf (binder.NullSafe rows row right) (eval rows [(elementName, row)] second)
      Value.IsTruth) :
    YieldsIf (binder.NullSafe rows row (.either left right))
      (eval rows [(elementName, row)] (.binary .orElse first second)) Value.IsTruth := by
  rw [eval_disjunction, NullSafe]
  refine readsLeft.bind ?_
  rintro - same ⟨verdict, rfl⟩
  rw [isFirst, same]
  cases verdict with
  | true => exact (YieldsIf.of_ok rfl ⟨true, rfl⟩).congr (by simp)
  | false =>
    refine (readsRight.map ?_).congr (by simp)
    rintro - ⟨verdict, rfl⟩
    exact ⟨_, rfl, verdict, rfl⟩

theorem compare_yields {left right : Filter} {comparison : Comparison} {first second : Expr}
    (readsLeft : YieldsIf (binder.NullSafe rows row left) (eval rows [(elementName, row)] first)
      fun _ => True)
    (readsRight : YieldsIf (binder.NullSafe rows row right) (eval rows [(elementName, row)] second)
      fun _ => True) :
    YieldsIf (binder.NullSafe rows row (.compare left comparison right))
      (eval rows [(elementName, row)] (.binary comparison.operator first second))
      Value.IsTruth := by
  rw [eval_comparison (by cases comparison <;> simp [Comparison.operator])
    (by cases comparison <;> simp [Comparison.operator]), NullSafe]
  exact readsLeft.bind fun value _ _ => readsRight.map fun value' _ => ⟨_, rfl, _, rfl⟩

theorem choiceTests_constant {target : Expr} {choices : List Filter} {tests : List Expr}
    (bound : binder.choiceTests target choices = .ok tests) :
    tests.length = choices.length ∧
      ∀ test ∈ tests, ∃ value ty, test = .binary .eq target (.constant value ty) := by
  have each := choiceTests_eq_ok.1 bound
  refine ⟨each.length_eq.symm, fun test isTest => ?_⟩
  obtain ⟨choice, -, made⟩ := exists_of_forall₂ each.flip isTest
  cases made with
  | literal isTyped =>
    obtain ⟨value, ty, rfl⟩ := typedAs_constant isTyped
    exact ⟨value, ty, rfl⟩

theorem anyOf_yields {safe : Prop} {target : Expr} {scope : Scope} {tests : List Expr}
    (reads : YieldsIf safe (eval rows scope target) fun _ => True) (some_ : tests ≠ [])
    (constants : ∀ test ∈ tests, ∃ value ty, test = .binary .eq target (.constant value ty)) :
    YieldsIf safe (eval rows scope (anyOf tests)) Value.IsTruth := by
  have tested (test : Expr) (shape : ∃ value ty, test = .binary .eq target (.constant value ty)) :
      YieldsIf safe (eval rows scope test) Value.IsTruth := by
    obtain ⟨value, ty, rfl⟩ := shape
    rw [eval_comparison (by simp) (by simp)]
    exact reads.map fun value _ => ⟨_, rfl, _, rfl⟩
  -- The disjunction grows to the left: the tests so far are its first operand.
  have grows (rest : List Expr) (start : Expr)
      (isStart : YieldsIf safe (eval rows scope start) Value.IsTruth)
      (constants : ∀ test ∈ rest, ∃ value ty, test = .binary .eq target (.constant value ty)) :
      YieldsIf safe (eval rows scope (rest.foldl (fun all test => .binary .orElse all test) start))
        Value.IsTruth := by
    induction rest generalizing start with
    | nil => exact isStart
    | cons test rest ih =>
      obtain ⟨shape, constants⟩ := List.forall_mem_cons.1 constants
      refine ih _ ?_ constants
      rw [eval_disjunction]
      refine (isStart.bind ?_).congr and_self_iff
      rintro - same ⟨verdict, rfl⟩
      cases verdict with
      | true => exact (YieldsIf.of_ok rfl ⟨true, rfl⟩).congr (iff_of_true trivial (isStart.holds_of_ok same))
      | false =>
        refine (tested test shape).map ?_
        rintro - ⟨verdict, rfl⟩
        exact ⟨_, rfl, verdict, rfl⟩
  cases tests with
  | nil => exact absurd rfl some_
  | cons test rest =>
    obtain ⟨shape, constants⟩ := List.forall_mem_cons.1 constants
    exact grows rest test (tested test shape) constants

theorem memberPath_yields (once : binder.schema.DeclaresOnce)
    (propagates : binder.context.nullPropagation = true)
    (isRow : Value.IsOf binder.schema (.named binder.elementType) row) (present : row ≠ .null)
    {path : String} {expr : Expr} (reads : binder.memberPath path = .ok expr) :
    binder.OperandYields rows row (.member path) .member expr := by
  have isElement : eval rows [(elementName, row)] (Expr.unlessNull [] (.parameter binder.element)) =
      .ok row := by
    simp only [Expr.unlessNull, eval, element, List.lookup_cons_self]
  obtain ⟨evaluated, computed, ty, sameType, isOf⟩ := memberSteps_reads once propagates
    (memberSteps_of_memberPath reads) isElement isRow (fun _ => ⟨rfl, present⟩) rfl
  refine ⟨(YieldsIf.of_ok evaluated ?_).congr (by simp [NullSafe]), fun _ => computed, by simp⟩
  refine ⟨by simp, by simp, fun textual => ?_⟩
  obtain ⟨kind, scalar, isText⟩ : ∃ kind, ty.nonNull = .scalar kind ∧
      (kind = .string ∨ kind = .enumeration) := by
    unfold Operand.isTextual DataType.scalarKind? at textual
    rw [sameType]
    cases shape : expr.type.nonNull with
    | scalar kind => cases kind <;> simp_all
    | nullable _ | named _ | collection _ _ | object => simp [shape] at textual
  rw [Filter.isNullOn]
  rcases isOf.text scalar isText with null_ | ⟨text, isText⟩
  · rw [null_]
    rfl
  · -- Text is never null, so a path that leads to text tells by its value whether it is present.
    have notNull : (row.along (Text.pathSegments path)).isNull = false := by
      cases held : row.along (Text.pathSegments path) <;> simp_all [Value.asText?, Value.isNull]
    rw [notNull]
    exact ⟨text, isText⟩

theorem valueCall_operand {filter : Filter} {text : Expr} {function : TextFunction} {name : String}
    (unary : arity function = 1)
    (yields : YieldsIf (binder.NullSafe rows row (.function name [filter]))
      (eval rows [(elementName, row)] (binder.valueCall function text))
      (TextResult function (filter.isNullOn row))) :
    binder.OperandYields rows row (.function name [filter]) .call
      (binder.valueCall function text) := by
  have type_ : (binder.valueCall function text).type.nonNull = function.resultType.nonNull := by
    unfold valueCall
    dsimp only
    split
    next => exact DataType.nonNull_orNull _
    next => rfl
  refine ⟨yields.mono fun value suits => ⟨by simp, fun _ isBoolean => ?_, fun textual => ?_⟩, ?_, by simp⟩
  · rw [DataType.scalarKind?, type_, ← DataType.scalarKind?] at isBoolean
    exact absurd isBoolean (TextFunction.not_boolean_of_unary unary)
  · rw [Filter.isNullOn]
    apply suits
    intro isNumber
    rw [Operand.isTextual, DataType.scalarKind?, type_, isNumber] at textual
    simp [DataType.nonNull] at textual
  · intro _
    unfold valueCall
    dsimp only
    split <;> rfl

theorem testCall_notText {function : TextFunction} (pair : arity function = 2) (text other : Expr) :
    Operand.isTextual (binder.testCall function text other) = false := by
  unfold testCall
  dsimp only
  split
  next => rfl
  next =>
    rw [Operand.isTextual, Expr.type, TextFunction.resultType_of_pair pair]
    rfl

theorem anyOf_notText {tests : List Expr} {target : Expr}
    (constants : ∀ test ∈ tests, ∃ value ty, test = .binary .eq target (.constant value ty)) :
    Operand.isTextual (anyOf tests) = false := by
  cases tests with
  | nil => rfl
  | cons first rest =>
    obtain ⟨value, ty, rfl⟩ := constants first List.mem_cons_self
    rcases List.eq_nil_or_concat rest with rfl | ⟨before, last, rfl⟩
    · rfl
    · rw [anyOf, List.concat_eq_append, List.foldl_append]
      rfl

theorem Binds.reads (rows : List Value) (once : binder.schema.DeclaresOnce)
    (propagates : binder.context.nullPropagation = true)
    (isRow : Value.IsOf binder.schema (.named binder.elementType) row) (present : row ≠ .null)
    {filter : Filter} {operand : Operand} (binds : binder.Binds filter operand) :
    binder.OperandReads rows row filter operand := by
  induction binds with
  | both isFirst condition _ condition' first second =>
    have yields := both_yields (verdictOn_eq isFirst.operand condition)
      (asCondition_yields first condition) (asCondition_yields second condition')
    exact .ofCondition yields rfl (by simp) _
  | either isFirst condition _ condition' first second =>
    have yields := either_yields (verdictOn_eq isFirst.operand condition)
      (asCondition_yields first condition) (asCondition_yields second condition')
    exact .ofCondition yields rfl (by simp) _
  | negation _ condition inner =>
    refine .ofCondition ?_ rfl (by simp) _
    rw [NullSafe]
    simp only [eval]
    refine (asCondition_yields inner condition).map ?_
    rintro - ⟨verdict, rfl⟩
    exact ⟨_, rfl, _, rfl⟩
  | compare comparison _ _ aligned first second =>
    obtain ⟨readsLeft, readsRight⟩ := aligned_yields first second aligned
    exact .ofCondition (compare_yields readsLeft readsRight) rfl (by simp) _
  | @oneOf _ choices _ target tests _ isTarget areTests inner =>
    have reads := asTarget_yields inner isTarget
    obtain ⟨sameLength, constants⟩ := choiceTests_constant areTests
    by_cases none_ : choices = []
    · -- Nothing is compared, so the operand is not read.
      obtain rfl : tests = [] := List.eq_nil_of_length_eq_zero (by simp [sameLength, none_])
      refine .ofCondition ((YieldsIf.of_ok rfl ⟨false, rfl⟩).congr ?_) rfl (by simp) _
      simp [NullSafe, none_]
    · have some_ : tests ≠ [] := by
        rintro rfl
        exact none_ (List.eq_nil_of_length_eq_zero sameLength.symm)
      refine .ofCondition ((anyOf_yields reads some_ constants).congr ?_) ?_ (by simp) _
      · simp [NullSafe, none_]
      · exact anyOf_notText constants
  | valueCall _ unary _ isText target =>
    obtain ⟨reads, constant⟩ := asText_yields target isText
    -- A function of one text yields text or a number, and never a condition.
    refine valueCall_operand unary ?_
    rw [NullSafe]
    exact valueCall_yields propagates unary reads constant
  | testCall _ pair _ isText _ isText' target argument =>
    obtain ⟨reads, constant⟩ := asText_yields target isText
    obtain ⟨readsOther, -⟩ := asText_yields argument isText'
    refine .ofCondition ?_ (testCall_notText pair _ _) (by simp) _
    rw [NullSafe]
    exact testCall_yields propagates pair reads constant readsOther
  | member reads => exact memberPath_yields once propagates isRow present reads
  | literal value => rfl

theorem nullSafe_of_testsLiterals (binder : Binder) (rows : List Value) (row : Value)
    (filter : Filter) (tests : filter.TestsLiterals) : binder.NullSafe rows row filter := by
  match filter with
  | .both left right | .either left right =>
    rw [Filter.TestsLiterals] at tests
    rw [NullSafe]
    exact ⟨nullSafe_of_testsLiterals binder rows row left tests.1,
      fun _ => nullSafe_of_testsLiterals binder rows row right tests.2⟩
  | .compare left _ right =>
    rw [Filter.TestsLiterals] at tests
    rw [NullSafe]
    exact ⟨nullSafe_of_testsLiterals binder rows row left tests.1,
      nullSafe_of_testsLiterals binder rows row right tests.2⟩
  | .negation operand =>
    rw [Filter.TestsLiterals] at tests
    rw [NullSafe]
    exact nullSafe_of_testsLiterals binder rows row operand tests
  | .oneOf operand choices =>
    rw [Filter.TestsLiterals] at tests
    rw [NullSafe]
    exact .inr (nullSafe_of_testsLiterals binder rows row operand tests)
  | .function _ [target] =>
    rw [Filter.TestsLiterals, Filter.ArgumentsTestLiterals] at tests
    rw [NullSafe]
    exact ⟨nullSafe_of_testsLiterals binder rows row target tests.1, tests.2.1⟩
  | .function _ [target, argument] =>
    rw [Filter.TestsLiterals, Filter.ArgumentsTestLiterals] at tests
    -- The argument is a literal that is not null, so only the target can yield null text.
    obtain ⟨targetTests, notNull, literals⟩ := tests
    obtain ⟨literal, rfl, present⟩ := literals argument List.mem_cons_self
    rw [NullSafe]
    refine ⟨nullSafe_of_testsLiterals binder rows row target targetTests, notNull, fun _ => ?_⟩
    simp [NullSafe, Filter.isNullOn, present]
  | .function _ [] | .function _ (_ :: _ :: _ :: _) | .member _ | .literal _ => simp [NullSafe]
termination_by filter

end Binder

/-- A filter that propagates nulls has a truth value on every row, unless it arrives at a function on
text that has a null operand without a guard. -/
theorem Filter.valueOn_of_bind {schema : Schema} {elementType : String} {filter : Filter}
    {timeZone : Option Int} {predicate : Lambda} {json : Json} {row : Value} (rows : List Value)
    (once : schema.DeclaresOnce)
    (bound : filter.bind schema elementType ⟨true, timeZone⟩ = .ok predicate)
    (isRow : Value.ofJson schema json (.named elementType) = .ok row) (present : row ≠ .null) :
    (Binder.NullSafe ⟨schema, elementType, ⟨true, timeZone⟩⟩ rows row filter ↔
        ∃ verdict, predicate.valueOn rows row = .ok (.bool verdict)) ∧
      (¬ Binder.NullSafe ⟨schema, elementType, ⟨true, timeZone⟩⟩ rows row filter →
        ∃ function : TextFunction, predicate.valueOn rows row =
          .error (.evaluation ("null reference in " ++ function.name))) ∧
      (filter.TestsLiterals → ∃ verdict, predicate.valueOn rows row = .ok (.bool verdict)) := by
  simp only [Filter.bind, Binder.predicate, Outcome.bind_eq_ok, pure_eq_ok] at bound
  obtain ⟨-, -, body, ⟨operand, isOperand, condition⟩, rfl⟩ := bound
  have yields := Binder.asCondition_yields
    ((Binder.operand_eq_ok.1 isOperand).reads rows once rfl ⟨json, isRow⟩ present) condition
  refine ⟨⟨yields.verdict, ?_⟩, yields.metNull, fun tests => yields.verdict ?_⟩
  · rintro ⟨verdict, same⟩
    exact yields.holds_of_ok same
  · exact Binder.nullSafe_of_testsLiterals _ rows row filter tests

def petSchema : Schema :=
  ⟨[⟨"Pet", .entity, none, [⟨"Name", .scalar .string⟩, ⟨"Nick", .nullable (.scalar .string)⟩,
    ⟨"Owner", .nullable (.named "Person")⟩]⟩,
    ⟨"Person", .entity, none, [⟨"Name", .scalar .string⟩]⟩]⟩

def strayPet : Json := .object [("Name", .string "Tom")]

def ownedOrNicked : Filter :=
  .either (.function "contains" [.function "tolower" [.member "Owner/Name"], .literal (.string "a")])
    (.function "startswith" [.member "Nick", .member "Name"])

theorem valueOn_of_bind_strayPet :
    ∃ predicate row, ownedOrNicked.bind petSchema "Pet" ⟨true, none⟩ = .ok predicate ∧
      Value.ofJson petSchema strayPet (.named "Pet") = .ok row ∧ row ≠ .null ∧
      ∃ verdict, predicate.valueOn [] row = .ok (.bool verdict) := by
  obtain ⟨predicate, bound, -⟩ := exists_of_toOption_any
    (ownedOrNicked.bind petSchema "Pet" ⟨true, none⟩) (fun _ => true) (by rfl)
  obtain ⟨row, isRow, isStray⟩ := exists_of_toOption_any
    (Value.ofJson petSchema strayPet (.named "Pet"))
    (fun row => !row.isNull && (row.along ["Nick"]).isNull && (row.along ["Owner", "Name"]).isNull)
    (by rfl)
  simp only [Bool.and_eq_true, Bool.not_eq_true'] at isStray
  obtain ⟨⟨present, noNick⟩, noOwner⟩ := isStray
  have notNull : row ≠ .null := by
    rintro rfl
    contradiction
  have once : petSchema.DeclaresOnce := by decide +kernel
  obtain ⟨total, -⟩ := Filter.valueOn_of_bind [] once bound isRow notNull
  refine ⟨predicate, row, bound, isRow, notNull, total.1 ?_⟩
  have nick : Text.pathSegments "Nick" = ["Nick"] := by rfl
  simp [ownedOrNicked, Binder.NullSafe, Filter.isNullOn, nick, noNick]

def namedAfterNick : Filter :=
  .function "contains" [.member "Name", .member "Nick"]

theorem not_valueOn_of_bind_total :
    ¬ ∀ (schema : Schema) (elementType : String) (filter : Filter) (timeZone : Option Int)
        (predicate : Lambda) (json : Json) (rows : List Value) (row : Value),
      filter.bind schema elementType ⟨true, timeZone⟩ = .ok predicate →
      Value.ofJson schema json (.named elementType) = .ok row → row ≠ .null →
        ∃ verdict, predicate.valueOn rows row = .ok (.bool verdict) := by
  intro always
  obtain ⟨predicate, bound, fails⟩ := exists_of_toOption_any
    (namedAfterNick.bind petSchema "Pet" ⟨true, none⟩)
    (fun predicate => (Value.ofJson petSchema strayPet (.named "Pet")).toOption.any fun row =>
      !row.isNull && (predicate.valueOn [] row).toOption.isNone) (by rfl)
  obtain ⟨row, isRow, fails⟩ := exists_of_toOption_any
    (Value.ofJson petSchema strayPet (.named "Pet"))
    (fun row => !row.isNull && (predicate.valueOn [] row).toOption.isNone) fails
  simp only [Bool.and_eq_true, Bool.not_eq_true'] at fails
  have notNull : row ≠ .null := by
    rintro rfl
    simp [Value.isNull] at fails
  obtain ⟨verdict, same⟩ := always _ _ _ _ _ _ [] _ bound isRow notNull
  simp [same, Except.toOption] at fails

end QueryProjection
