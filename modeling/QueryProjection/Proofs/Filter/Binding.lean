import QueryProjection.Filter.Binder
import QueryProjection.Proofs.Outcome

set_option autoImplicit false

namespace QueryProjection

open Outcome

namespace Operand

inductive IsCondition : Operand → Expr → Prop where
  | member {expr : Expr} (boolean : expr.type.scalarKind? = some .boolean) :
      IsCondition (.typed .member expr) (.binary .eq expr (.truthConstant true))
  | call {expr : Expr} (boolean : expr.type.scalarKind? = some .boolean) :
      IsCondition (.typed .call expr) expr
  | condition (expr : Expr) : IsCondition (.typed .condition expr) expr
  | literal (verdict : Bool) : IsCondition (.literal (.bool verdict)) (.truthConstant verdict)

theorem requireBoolean_eq_ok {expr : Expr} {result : Unit} :
    requireBoolean expr = .ok result ↔ expr.type.scalarKind? = some .boolean := by
  unfold requireBoolean
  split <;> simp_all

theorem isCondition_of_asCondition {operand : Operand} {expr : Expr}
    (condition : operand.asCondition = .ok expr) : operand.IsCondition expr := by
  unfold asCondition at condition
  split at condition
  next =>
    simp only [bind_eq_ok, pure_eq_ok, requireBoolean_eq_ok] at condition
    obtain ⟨-, boolean, rfl⟩ := condition
    exact .member boolean
  next =>
    simp only [bind_eq_ok, pure_eq_ok, requireBoolean_eq_ok] at condition
    obtain ⟨-, boolean, rfl⟩ := condition
    exact .call boolean
  next =>
    cases condition
    exact .condition expr
  next verdict =>
    cases condition
    exact .literal verdict
  next => simp at condition

inductive Aligned (offset : Int) : Operand → Operand → Expr → Expr → Prop where
  | typed (role role' : OperandRole) (expr expr' : Expr) :
      Aligned offset (.typed role expr) (.typed role' expr') expr expr'
  | right (role : OperandRole) {expr expr' : Expr} {literal : FilterLiteral}
      (isTyped : literal.typedAs offset expr.type = .ok expr') :
      Aligned offset (.typed role expr) (.literal literal) expr expr'
  | left (role : OperandRole) {expr expr' : Expr} {literal : FilterLiteral}
      (isTyped : literal.typedAs offset expr'.type = .ok expr) :
      Aligned offset (.literal literal) (.typed role expr') expr expr'
  | literals {expr expr' : Expr} {literal literal' : FilterLiteral}
      (isTyped : literal.typedNaturally offset = .ok expr)
      (isTyped' : literal'.typedNaturally offset = .ok expr') :
      Aligned offset (.literal literal) (.literal literal') expr expr'

theorem aligned_of_eq_ok {left right : Operand} {offset : Int} {expr expr' : Expr}
    (aligned : left.aligned offset right = .ok (expr, expr')) : Aligned offset left right expr expr' := by
  cases left with
  | typed role first =>
    cases right with
    | typed role' second =>
      cases aligned
      exact .typed role role' _ _
    | literal literal =>
      simp only [Operand.aligned, bind_eq_ok, pure_eq_ok, Prod.mk.injEq] at aligned
      obtain ⟨second, isTyped, rfl, rfl⟩ := aligned
      exact .right role isTyped
  | literal literal =>
    cases right with
    | typed role second =>
      simp only [Operand.aligned, bind_eq_ok, pure_eq_ok, Prod.mk.injEq] at aligned
      obtain ⟨first, isTyped, rfl, rfl⟩ := aligned
      exact .left role isTyped
    | literal literal' =>
      simp only [Operand.aligned, bind_eq_ok, pure_eq_ok, Prod.mk.injEq] at aligned
      obtain ⟨first, isTyped, second, isTyped', rfl, rfl⟩ := aligned
      exact .literals isTyped isTyped'

inductive IsText (offset : Int) : Operand → Expr → Prop where
  | typed (role : OperandRole) {expr : Expr} (textual : isTextual expr = true) :
      IsText offset (.typed role expr) expr
  | literal {literal : FilterLiteral} {expr : Expr}
      (isTyped : literal.typedAs offset (.scalar .string) = .ok expr) :
      IsText offset (.literal literal) expr

theorem isText_of_asText {operand : Operand} {offset : Int} {expr : Expr}
    (text : operand.asText offset = .ok expr) : operand.IsText offset expr := by
  cases operand with
  | typed role inner =>
    simp only [asText] at text
    split at text
    next textual =>
      cases text
      exact .typed role textual
    next => simp at text
  | literal literal => exact .literal text

end Operand

namespace Binder

variable {binder : Binder}

theorem memberSteps_of_memberPath {path : String} {expr : Expr}
    (reads : binder.memberPath path = .ok expr) :
    binder.memberSteps path none [] (.parameter binder.element) (Text.pathSegments path) =
      .ok expr := by
  unfold memberPath at reads
  split at reads
  next => simp at reads
  next => exact reads

theorem memberSteps_cons {path segment : String} {previous : Option String} {guards : List Expr}
    {current expr : Expr} {rest : List String}
    (reads : binder.memberSteps path previous guards current (segment :: rest) = .ok expr) :
    ∃ typeName member, current.type.isCollection = false ∧
      current.type.nonNull = .named typeName ∧
      binder.schema.resolve typeName segment = .ok member ∧
      binder.memberSteps path (some segment)
        (if previous.isSome && binder.context.nullPropagation then guards ++ [current] else guards)
        (.member current member.name member.ty) rest = .ok expr := by
  simp only [memberSteps] at reads
  split at reads
  next => simp at reads
  next single =>
    split at reads
    next typeName named =>
      obtain ⟨member, resolved, reads⟩ := bind_eq_ok.1 reads
      exact ⟨typeName, member, by simpa using single, named, resolved, reads⟩
    next => simp at reads

theorem requireArity_eq_ok {name : String} {count : Nat} {function : TextFunction} :
    requireArity name count = .ok function ↔
      functionNamed name = .ok function ∧ arity function = count := by
  simp only [requireArity, bind_eq_ok]
  constructor
  · rintro ⟨named, isNamed, called⟩
    split at called
    next same => exact pure_eq_ok.1 called ▸ ⟨isNamed, same⟩
    next => simp [wrongArity] at called
  · rintro ⟨isNamed, same⟩
    exact ⟨function, isNamed, by rw [if_pos same]; rfl⟩

theorem typedAs_constant {offset : Int} {ty : DataType} {literal : FilterLiteral} {expr : Expr}
    (typed : literal.typedAs offset ty = .ok expr) : ∃ value ty', expr = .constant value ty' := by
  unfold FilterLiteral.typedAs at typed
  split at typed
  next => exact ⟨.null, ty, (Except.ok.inj typed).symm⟩
  next kind _ _ =>
    obtain ⟨value, -, typed⟩ := bind_eq_ok.1 typed
    exact ⟨value, .scalar kind, (pure_eq_ok.1 typed).symm⟩
  next => simp at typed

theorem typedNaturally_constant {offset : Int} {literal : FilterLiteral} {expr : Expr}
    (typed : literal.typedNaturally offset = .ok expr) : ∃ value ty, expr = .constant value ty := by
  unfold FilterLiteral.typedNaturally at typed
  split at typed
  next => exact ⟨.null, .object, (Except.ok.inj typed).symm⟩
  next => exact typedAs_constant typed

inductive ChoiceTest (binder : Binder) (target : Expr) : Filter → Expr → Prop where
  | literal {literal : FilterLiteral} {candidate : Expr}
      (isTyped : literal.typedAs binder.offset target.type = .ok candidate) :
      ChoiceTest binder target (.literal literal) (.binary .eq target candidate)

theorem choiceTests_eq_ok {target : Expr} {choices : List Filter} {tests : List Expr} :
    binder.choiceTests target choices = .ok tests ↔
      List.Forall₂ (binder.ChoiceTest target) choices tests := by
  constructor
  · intro bound
    induction choices generalizing tests with
    | nil =>
      cases bound
      exact .nil
    | cons choice rest ih =>
      cases choice with
      | literal literal =>
        simp only [choiceTests, bind_eq_ok, pure_eq_ok] at bound
        obtain ⟨candidate, isTyped, others, areOthers, rfl⟩ := bound
        exact .cons (.literal isTyped) (ih areOthers)
      | both _ _ | either _ _ | negation _ | compare _ _ _ | oneOf _ _ | function _ _ | member _ =>
        simp [choiceTests] at bound
  · intro each
    induction each with
    | nil => rfl
    | cons first _ ih =>
      obtain ⟨isTyped⟩ := first
      rw [choiceTests, isTyped, ok_bind, ih, ok_bind]
      rfl

inductive Binds (binder : Binder) : Filter → Operand → Prop where
  | both {left right : Filter} {first second : Operand} {test test' : Expr}
      (isFirst : Binds binder left first) (condition : first.asCondition = .ok test)
      (isSecond : Binds binder right second) (condition' : second.asCondition = .ok test') :
      Binds binder (.both left right) (.typed .condition (.binary .andAlso test test'))
  | either {left right : Filter} {first second : Operand} {test test' : Expr}
      (isFirst : Binds binder left first) (condition : first.asCondition = .ok test)
      (isSecond : Binds binder right second) (condition' : second.asCondition = .ok test') :
      Binds binder (.either left right) (.typed .condition (.binary .orElse test test'))
  | negation {inner : Filter} {operand : Operand} {test : Expr}
      (isInner : Binds binder inner operand) (condition : operand.asCondition = .ok test) :
      Binds binder (.negation inner) (.typed .condition (.negation test))
  | compare (comparison : Comparison) {left right : Filter} {first second : Operand}
      {expr expr' : Expr} (isFirst : Binds binder left first) (isSecond : Binds binder right second)
      (aligned : first.aligned binder.offset second = .ok (expr, expr')) :
      Binds binder (.compare left comparison right)
        (.typed .condition (.binary comparison.operator expr expr'))
  | oneOf {inner : Filter} {choices : List Filter} {operand : Operand} {target : Expr}
      {tests : List Expr} (isInner : Binds binder inner operand)
      (isTarget : operand.asTarget binder.offset = .ok target)
      (areTests : binder.choiceTests target choices = .ok tests) :
      Binds binder (.oneOf inner choices) (.typed .condition (anyOf tests))
  | valueCall {name : String} {called : TextFunction} {target : Filter} {operand : Operand}
      {text : Expr} (named : functionNamed name = .ok called) (unary : arity called = 1)
      (isTarget : Binds binder target operand) (isText : operand.asText binder.offset = .ok text) :
      Binds binder (.function name [target]) (.typed .call (binder.valueCall called text))
  | testCall {name : String} {called : TextFunction} {target argument : Filter}
      {operand other : Operand} {text text' : Expr} (named : functionNamed name = .ok called)
      (pair : arity called = 2) (isTarget : Binds binder target operand)
      (isText : operand.asText binder.offset = .ok text) (isArgument : Binds binder argument other)
      (isText' : other.asText binder.offset = .ok text') :
      Binds binder (.function name [target, argument])
        (.typed .call (binder.testCall called text text'))
  | member {path : String} {expr : Expr} (reads : binder.memberPath path = .ok expr) :
      Binds binder (.member path) (.typed .member expr)
  | literal (value : FilterLiteral) : Binds binder (.literal value) (.literal value)

theorem binds_of_operand (binder : Binder) (filter : Filter) {operand : Operand}
    (bound : binder.operand filter = .ok operand) : binder.Binds filter operand := by
  match filter with
  | .both left right =>
    simp only [Binder.operand, bind_eq_ok, pure_eq_ok] at bound
    obtain ⟨first, isFirst, test, condition, second, isSecond, test', condition', rfl⟩ := bound
    exact .both (binds_of_operand binder left isFirst) condition
      (binds_of_operand binder right isSecond) condition'
  | .either left right =>
    simp only [Binder.operand, bind_eq_ok, pure_eq_ok] at bound
    obtain ⟨first, isFirst, test, condition, second, isSecond, test', condition', rfl⟩ := bound
    exact .either (binds_of_operand binder left isFirst) condition
      (binds_of_operand binder right isSecond) condition'
  | .negation inner =>
    simp only [Binder.operand, bind_eq_ok, pure_eq_ok] at bound
    obtain ⟨first, isFirst, test, condition, rfl⟩ := bound
    exact .negation (binds_of_operand binder inner isFirst) condition
  | .compare left comparison right =>
    simp only [Binder.operand, bind_eq_ok, pure_eq_ok] at bound
    obtain ⟨first, isFirst, second, isSecond, ⟨expr, expr'⟩, aligned, rfl⟩ := bound
    exact .compare comparison (binds_of_operand binder left isFirst)
      (binds_of_operand binder right isSecond) aligned
  | .oneOf inner choices =>
    simp only [Binder.operand, bind_eq_ok, pure_eq_ok] at bound
    obtain ⟨first, isFirst, target, isTarget, tests, areTests, rfl⟩ := bound
    exact .oneOf (binds_of_operand binder inner isFirst) isTarget areTests
  | .function name [target] =>
    simp only [Binder.operand, bind_eq_ok, pure_eq_ok] at bound
    obtain ⟨called, isCalled, first, isFirst, text, isText, rfl⟩ := bound
    obtain ⟨named, unary⟩ := requireArity_eq_ok.1 isCalled
    exact .valueCall named unary (binds_of_operand binder target isFirst) isText
  | .function name [target, argument] =>
    simp only [Binder.operand, bind_eq_ok, pure_eq_ok] at bound
    obtain ⟨called, isCalled, first, isFirst, text, isText, second, isSecond, text', isText', rfl⟩ :=
      bound
    obtain ⟨named, pair⟩ := requireArity_eq_ok.1 isCalled
    exact .testCall named pair (binds_of_operand binder target isFirst) isText
      (binds_of_operand binder argument isSecond) isText'
  | .function name [] | .function name (_ :: _ :: _ :: _) =>
    -- No function takes so many arguments, and the binder fails even for one that would.
    simp only [Binder.operand] at bound
    split at bound
    next => simp [wrongArity] at bound
    next => simp at bound
  | .member path =>
    simp only [Binder.operand, bind_eq_ok, pure_eq_ok] at bound
    obtain ⟨expr, reads, rfl⟩ := bound
    exact .member reads
  | .literal value =>
    simp only [Binder.operand, Except.ok.injEq] at bound
    exact bound ▸ .literal value
termination_by filter

theorem Binds.operand {filter : Filter} {operand : Operand} (binds : binder.Binds filter operand) :
    binder.operand filter = .ok operand := by
  induction binds with
  | both _ condition _ condition' first second | either _ condition _ condition' first second =>
    rw [Binder.operand, first, ok_bind, condition, ok_bind, second, ok_bind, condition', ok_bind]
    rfl
  | negation _ condition inner =>
    rw [Binder.operand, inner, ok_bind, condition, ok_bind]
    rfl
  | compare _ _ _ aligned first second =>
    rw [Binder.operand, first, ok_bind, second, ok_bind, aligned, ok_bind]
    rfl
  | oneOf _ isTarget areTests inner =>
    rw [Binder.operand, inner, ok_bind, isTarget, ok_bind, areTests, ok_bind]
    rfl
  | valueCall named unary _ isText target =>
    rw [Binder.operand, requireArity_eq_ok.2 ⟨named, unary⟩, ok_bind, target, ok_bind, isText, ok_bind]
    rfl
  | testCall named pair _ isText _ isText' target argument =>
    rw [Binder.operand, requireArity_eq_ok.2 ⟨named, pair⟩, ok_bind, target, ok_bind, isText, ok_bind,
      argument, ok_bind, isText', ok_bind]
    rfl
  | member reads =>
    rw [Binder.operand, reads, ok_bind]
    rfl
  | literal value => rw [Binder.operand]

theorem operand_eq_ok {filter : Filter} {operand : Operand} :
    binder.operand filter = .ok operand ↔ binder.Binds filter operand :=
  ⟨binds_of_operand binder filter, Binds.operand⟩

end Binder

end QueryProjection
