import QueryProjection.Proofs.Filter.Meaning
import QueryProjection.Proofs.Filter.NullSafety

set_option autoImplicit false

namespace QueryProjection

open Outcome Evaluation

namespace Evaluation

def OnlyValue (outcome : Outcome Value) (value : Value) : Prop :=
  ∀ held, outcome = .ok held → held = value

namespace OnlyValue

variable {outcome outcome' : Outcome Value} {value value' : Value}

theorem of_ok (value : Value) : OnlyValue (.ok value) value := by
  rintro held ⟨⟩
  rfl

theorem bind {next : Value → Outcome Value} (first : OnlyValue outcome value)
    (then_ : OnlyValue (next value) value') : OnlyValue (outcome >>= next) value' := by
  intro held computed
  obtain ⟨first', same, later⟩ := bind_eq_ok.1 computed
  rw [first first' same] at later
  exact then_ held later

end OnlyValue

theorem compareBy_operator (comparison : Comparison) (left right : Value) :
    compareBy comparison.operator left right = comparison.holds left right := by
  cases comparison with
  | eq | ne => rfl
  | gt | ge | lt | le =>
    simp only [compareBy, Comparison.operator, Comparison.holds]
    cases Value.compare? left right with
    | none => rfl
    | some order => cases order <;> rfl

theorem equals_true (value : Value) : value.equals (.bool true) = value.isTrue := by
  cases value with
  | bool verdict => cases verdict <;> rfl
  | _ => rfl

theorem OnlyValue.comparison {rows : List Value} {scope : Scope} {left right : Expr}
    {value value' : Value} (first : OnlyValue (eval rows scope left) value)
    (second : OnlyValue (eval rows scope right) value') (comparison : Comparison) :
    OnlyValue (eval rows scope (.binary comparison.operator left right))
      (.bool (comparison.holds value value')) := by
  rw [eval_comparison (by cases comparison <;> simp [Comparison.operator])
    (by cases comparison <;> simp [Comparison.operator])]
  refine first.bind (second.bind ?_)
  rw [compareBy_operator]
  exact .of_ok _

theorem textArgument_eq_ok {values : List Value} {index : Nat} {function : TextFunction}
    {text : String} (isText : textArgument values index function = .ok text) :
    (values[index]?).bind Value.asText? = some text := by
  unfold textArgument at isText
  split at isText <;> simp_all [fault, Value.asText?]

theorem applyFunction_unary_only {function : TextFunction} (unary : Binder.arity function = 1)
    (value : Value) :
    OnlyValue (applyFunction function [value]) (function.resultOn value.asText? none) := by
  intro held applied
  simp only [applyFunction, bind_eq_ok] at applied
  obtain ⟨text, isText, result⟩ := applied
  have isText : value.asText? = some text := textArgument_eq_ok isText
  rw [isText]
  cases function with
  | contains | startsWith | endsWith => simp [Binder.arity] at unary
  | toLower | toUpper | length => exact (pure_eq_ok.1 result).symm

theorem applyFunction_pair_only {function : TextFunction} (pair : Binder.arity function = 2)
    (value other : Value) :
    OnlyValue (applyFunction function [value, other])
      (function.resultOn value.asText? other.asText?) := by
  intro held applied
  simp only [applyFunction, bind_eq_ok] at applied
  obtain ⟨text, isFirst, result⟩ := applied
  have isText : value.asText? = some text := textArgument_eq_ok isFirst
  cases function with
  | toLower | toUpper | length => simp [Binder.arity] at pair
  | contains | startsWith | endsWith =>
    obtain ⟨part, isSecond, result⟩ := bind_eq_ok.1 result
    have isPart : other.asText? = some part := textArgument_eq_ok isSecond
    rw [isText, isPart]
    exact (pure_eq_ok.1 result).symm

end Evaluation

namespace TextFunction

variable {function : TextFunction}

theorem resultOn_none (unary : Binder.arity function = 1) (argument : Option String) :
    function.resultOn none argument = .null := by
  cases function with
  | contains | startsWith | endsWith => simp [Binder.arity] at unary
  | toLower | toUpper | length => rfl

theorem resultOn_test (pair : Binder.arity function = 2) (text argument : Option String) :
    ∃ verdict, function.resultOn text argument = .bool verdict := by
  cases function with
  | toLower | toUpper | length => simp [Binder.arity] at pair
  | contains | startsWith | endsWith => cases text <;> cases argument <;> exact ⟨_, rfl⟩

theorem resultOn_test_none (pair : Binder.arity function = 2) (argument : Option String) :
    function.resultOn none argument = .bool false := by
  cases function with
  | toLower | toUpper | length => simp [Binder.arity] at pair
  | contains | startsWith | endsWith => rfl

end TextFunction

namespace Binder

variable {binder : Binder} {rows : List Value} {row : Value}

def reading (binder : Binder) (row : Value) : FilterReading :=
  ⟨binder.schema, binder.elementType, binder.offset, row⟩

abbrev Denotes (rows : List Value) (row : Value) (expr : Expr) (value : Value) : Prop :=
  OnlyValue (eval rows [(elementName, row)] expr) value

structure OperandMeans (binder : Binder) (rows : List Value) (row : Value) (filter : Filter)
    (role : OperandRole) (expr : Expr) : Prop where
  denotes : Denotes rows row expr ((binder.reading row).value filter)
  kind : expr.type.scalarKind? = (binder.reading row).kind? filter
  condition : role = .condition → ((binder.reading row).value filter).IsTruth
  call : role = .call → expr.type.scalarKind? = some .boolean →
    ((binder.reading row).value filter).IsTruth
  notLiteral : ∀ literal, filter ≠ .literal literal

def Means (binder : Binder) (rows : List Value) (row : Value) (filter : Filter) : Operand → Prop
  | .typed role expr => binder.OperandMeans rows row filter role expr
  | .literal value => filter = .literal value

theorem typedAs_means {ty : DataType} {literal : FilterLiteral} {expr : Expr}
    (typed : literal.typedAs binder.offset ty = .ok expr) (row : Value) :
    ∃ ty', expr = .constant ((binder.reading row).literalAs ty.scalarKind? literal) ty' ∧
      ty'.scalarKind? = ty.scalarKind? := by
  unfold FilterLiteral.typedAs at typed
  split at typed
  next =>
    cases typed
    refine ⟨ty, ?_, rfl⟩
    cases kind : ty.scalarKind? <;>
      simp [FilterReading.literalAs, FilterLiteral.coerce, Expr.null, Except.toOption]
  next kind _ isKind =>
    obtain ⟨value, coerced, same⟩ := bind_eq_ok.1 typed
    cases pure_eq_ok.1 same
    refine ⟨.scalar kind, ?_, isKind.symm⟩
    have offset : (binder.reading row).offset = binder.offset := rfl
    simp [FilterReading.literalAs, isKind, offset, coerced, Except.toOption]
  next => simp at typed

theorem typedNaturally_means {literal : FilterLiteral} {expr : Expr}
    (typed : literal.typedNaturally binder.offset = .ok expr) (row : Value) :
    ∃ ty, expr = .constant ((binder.reading row).value (.literal literal)) ty ∧
      ty.scalarKind? = literal.naturalKind? := by
  unfold FilterLiteral.typedNaturally at typed
  rw [FilterReading.value]
  split at typed
  next natural =>
    cases typed
    rw [natural]
    exact ⟨.object, rfl, rfl⟩
  next kind natural =>
    rw [natural]
    exact typedAs_means typed row

theorem denotes_constant (value : Value) (ty : DataType) :
    Denotes rows row (.constant value ty) value :=
  .of_ok value

theorem denotes_verdict {expr : Expr} {value : Value} (denotes : Denotes rows row expr value)
    (isTruth : value.IsTruth) : Denotes rows row expr (.bool value.isTrue) := by
  obtain ⟨verdict, rfl⟩ := isTruth
  cases verdict <;> exact denotes

theorem asCondition_means {filter : Filter} {operand : Operand} {expr : Expr}
    (means : binder.Means rows row filter operand) (condition : operand.asCondition = .ok expr) :
    Denotes rows row expr (.bool ((binder.reading row).holds filter)) := by
  rw [FilterReading.holds]
  cases Operand.isCondition_of_asCondition condition with
  | member _ =>
    rw [← equals_true]
    exact means.denotes.comparison (denotes_constant (.bool true) _) .eq
  | call boolean => exact denotes_verdict means.denotes (means.call rfl boolean)
  | condition _ => exact denotes_verdict means.denotes (means.condition rfl)
  | literal verdict =>
    obtain rfl : filter = _ := means
    exact denotes_verdict (denotes_constant (.bool verdict) _) ⟨verdict, rfl⟩

theorem asTarget_means {filter : Filter} {operand : Operand} {expr : Expr}
    (means : binder.Means rows row filter operand)
    (target : operand.asTarget binder.offset = .ok expr) :
    Denotes rows row expr ((binder.reading row).value filter) ∧
      expr.type.scalarKind? = (binder.reading row).kind? filter := by
  unfold Operand.asTarget at target
  split at target
  next =>
    cases target
    exact ⟨means.denotes, means.kind⟩
  next =>
    obtain ⟨ty, rfl, kind⟩ := typedNaturally_means target row
    obtain rfl : filter = _ := means
    exact ⟨denotes_constant _ ty, kind⟩

theorem aligned_means {left right : Filter} {first second : Operand} {expr expr' : Expr}
    (meansLeft : binder.Means rows row left first) (meansRight : binder.Means rows row right second)
    (aligned : first.aligned binder.offset second = .ok (expr, expr')) :
    Denotes rows row expr
        ((binder.reading row).beside right left ((binder.reading row).value left)) ∧
      Denotes rows row expr'
        ((binder.reading row).beside left right ((binder.reading row).value right)) := by
  -- Only a literal follows the other side, and only a side that is no literal itself.
  have own {filter : Filter} (other : Filter) (notLiteral : ∀ literal, filter ≠ .literal literal)
      (value : Value) : (binder.reading row).beside other filter value = value := by
    cases filter <;> first | rfl | exact absurd rfl (notLiteral _)
  have follows {filter : Filter} (notLiteral : ∀ literal, filter ≠ .literal literal)
      (literal : FilterLiteral) (value : Value) :
      (binder.reading row).beside filter (.literal literal) value =
        (binder.reading row).literalAs ((binder.reading row).kind? filter) literal := by
    cases filter <;> first | rfl | exact absurd rfl (notLiteral _)
  cases Operand.aligned_of_eq_ok aligned with
  | typed role role' _ _ =>
    rw [own right meansLeft.notLiteral, own left meansRight.notLiteral]
    exact ⟨meansLeft.denotes, meansRight.denotes⟩
  | right role isTyped =>
    obtain rfl : right = _ := meansRight
    obtain ⟨ty, rfl, -⟩ := typedAs_means isTyped row
    rw [own _ meansLeft.notLiteral, follows meansLeft.notLiteral, ← meansLeft.kind]
    exact ⟨meansLeft.denotes, denotes_constant _ ty⟩
  | left role isTyped =>
    obtain rfl : left = _ := meansLeft
    obtain ⟨ty, rfl, -⟩ := typedAs_means isTyped row
    rw [own _ meansRight.notLiteral, follows meansRight.notLiteral, ← meansRight.kind]
    exact ⟨denotes_constant _ ty, meansRight.denotes⟩
  | literals isTyped isTyped' =>
    obtain rfl : left = _ := meansLeft
    obtain rfl : right = _ := meansRight
    obtain ⟨ty, rfl, -⟩ := typedNaturally_means isTyped row
    obtain ⟨ty', rfl, -⟩ := typedNaturally_means isTyped' row
    exact ⟨denotes_constant _ ty, denotes_constant _ ty'⟩

theorem asText_means {filter : Filter} {operand : Operand} {expr : Expr}
    (means : binder.Means rows row filter operand)
    (text : operand.asText binder.offset = .ok expr) :
    ∃ value, Denotes rows row expr value ∧
      value.asText? = (binder.reading row).textOf filter ((binder.reading row).value filter) := by
  cases Operand.isText_of_asText text with
  | typed role _ =>
    refine ⟨_, means.denotes, ?_⟩
    cases filter <;> first | rfl | exact absurd rfl (means.notLiteral _)
  | literal isTyped =>
    obtain ⟨ty, rfl, -⟩ := typedAs_means isTyped row
    obtain rfl : filter = _ := means
    exact ⟨_, denotes_constant _ ty, rfl⟩

theorem both_means {left right : Expr} {verdict verdict' : Bool}
    (first : Denotes rows row left (.bool verdict)) (second : Denotes rows row right (.bool verdict')) :
    Denotes rows row (.binary .andAlso left right) (.bool (verdict && verdict')) := by
  unfold Denotes
  rw [eval_conjunction]
  refine first.bind ?_
  cases verdict with
  | true => exact second.bind (.of_ok _)
  | false => exact .of_ok _

theorem either_means {left right : Expr} {verdict verdict' : Bool}
    (first : Denotes rows row left (.bool verdict)) (second : Denotes rows row right (.bool verdict')) :
    Denotes rows row (.binary .orElse left right) (.bool (verdict || verdict')) := by
  unfold Denotes
  rw [eval_disjunction]
  refine first.bind ?_
  cases verdict with
  | true => exact .of_ok _
  | false => exact second.bind (.of_ok _)

theorem anyOf_means {verdicts : List Bool} {tests : List Expr}
    (each : List.Forall₂ (fun verdict test => Denotes rows row test (.bool verdict)) verdicts tests) :
    Denotes rows row (anyOf tests) (.bool (verdicts.any id)) := by
  -- The disjunction grows to the left, so the induction carries what stands before.
  have grows {verdicts : List Bool} {rest : List Expr} {start : Expr} {before : Bool}
      (each : List.Forall₂ (fun verdict test => Denotes rows row test (.bool verdict)) verdicts rest)
      (first : Denotes rows row start (.bool before)) :
      Denotes rows row (rest.foldl (fun all test => .binary .orElse all test) start)
        (.bool (before || verdicts.any id)) := by
    induction each generalizing start before with
    | nil => simpa using first
    | cons isTest _ ih =>
      rw [List.foldl_cons, List.any_cons, ← Bool.or_assoc]
      exact ih (either_means first isTest)
  cases each with
  | nil => exact denotes_constant (.bool false) _
  | cons isTest each => exact grows each isTest

theorem choiceTests_means {chosen : Filter} {target : Expr} {value : Value} {choices : List Filter}
    {tests : List Expr} (denotes : Denotes rows row target value)
    (kind : target.type.scalarKind? = (binder.reading row).kind? chosen)
    (bound : binder.choiceTests target choices = .ok tests) :
    List.Forall₂ (fun verdict test => Denotes rows row test (.bool verdict))
      (choices.map ((binder.reading row).chooses chosen value)) tests := by
  refine List.forall₂_map_left_iff.2 ((choiceTests_eq_ok.1 bound).imp fun choice test made => ?_)
  cases made with
  | literal isTyped =>
    obtain ⟨ty, rfl, -⟩ := typedAs_means isTyped row
    rw [kind]
    exact denotes.comparison (denotes_constant _ ty) .eq

theorem valueCall_means {function : TextFunction} (unary : arity function = 1) {text : Expr}
    {value : Value} (denotes : Denotes rows row text value) :
    Denotes rows row (binder.valueCall function text) (function.resultOn value.asText? none) := by
  have calls : Denotes rows row (.function function [text])
      (function.resultOn value.asText? none) := by
    unfold Denotes
    rw [eval_unary]
    exact denotes.bind (applyFunction_unary_only unary value)
  unfold valueCall
  dsimp only
  split
  next =>
    unfold Denotes
    rw [eval_unlessNullOperand]
    refine denotes.bind ?_
    split
    next null_ =>
      rw [Value.eq_null_of_isNull null_, show Value.null.asText? = none from rfl,
        TextFunction.resultOn_none unary]
      exact .of_ok _
    next => exact calls
  next => exact calls

theorem testCall_means {function : TextFunction} (pair : arity function = 2) {text other : Expr}
    {value value' : Value} (denotes : Denotes rows row text value)
    (denotesOther : Denotes rows row other value') :
    Denotes rows row (binder.testCall function text other)
      (function.resultOn value.asText? value'.asText?) := by
  have calls : Denotes rows row (.function function [text, other])
      (function.resultOn value.asText? value'.asText?) := by
    unfold Denotes
    rw [eval_pair]
    exact denotes.bind (denotesOther.bind (applyFunction_pair_only pair value value'))
  unfold testCall
  dsimp only
  split
  next =>
    unfold Denotes
    rw [eval_unlessNullTest]
    refine denotes.bind ?_
    split
    next null_ =>
      rw [Value.eq_null_of_isNull null_, show Value.null.asText? = none from rfl,
        TextFunction.resultOn_test_none pair]
      exact .of_ok _
    next =>
      -- A test yields a truth value, which the guard passes on.
      obtain ⟨verdict, isVerdict⟩ := TextFunction.resultOn_test pair value.asText? value'.asText?
      rw [isVerdict] at calls ⊢
      exact calls.bind (.of_ok _)
  next => exact calls

theorem readMember_only (value : Value) (name : String) (whole : Expr) :
    OnlyValue (readMember value name whole) ((value.field? name).getD .null) := by
  intro held read
  cases value with
  | record typeName fields =>
    simp only [readMember] at read
    split at read
    next found =>
      cases read
      simp [Value.field?, found]
    next => simp [fault] at read
  | _ => simp [readMember, fault] at read

theorem memberSteps_means {scope : Scope} {path : String} {previous : Option String}
    {guards : List Expr} {current expr : Expr} {segments : List String} {value : Value}
    (reads : binder.memberSteps path previous guards current segments = .ok expr)
    (entered : guards = [] ∨ previous.isSome = true ∧ binder.context.nullPropagation = true)
    (denotes : OnlyValue (guarded (guards.map (eval rows scope)) (eval rows scope current)) value) :
    OnlyValue (eval rows scope expr)
        (value.along ((binder.schema.membersAlong current.type segments).map (·.name))) ∧
      expr.type.scalarKind? = (((binder.schema.membersAlong current.type segments).getLast?.map
        (·.ty)).getD current.type).scalarKind? := by
  -- The value that is carried along is that of the path read so far, null once a member was null.
  induction segments generalizing previous guards current value with
  | nil =>
    simp only [memberSteps, Except.ok.injEq] at reads
    subst reads
    rw [Expr.eval_unlessNull]
    refine ⟨denotes, ?_⟩
    unfold DataType.scalarKind?
    rw [Expr.type_unlessNull]
    rfl
  | cons segment rest ih =>
    obtain ⟨typeName, member, -, named, resolved, reads⟩ := memberSteps_cons reads
    have isMember := Schema.member?_of_resolve resolved
    have members : binder.schema.membersAlong current.type (segment :: rest) =
        member :: binder.schema.membersAlong member.ty rest := by
      simp only [Schema.membersAlong, named, isMember]
    have isNext (same : eval rows scope current = .ok value) :
        OnlyValue (eval rows scope (.member current member.name member.ty))
          ((value.field? member.name).getD .null) := by
      simp only [eval, same, ok_bind]
      exact readMember_only value member.name _
    have last : (((binder.schema.membersAlong current.type (segment :: rest)).getLast?.map
          (·.ty)).getD current.type) =
        (((binder.schema.membersAlong member.ty rest).getLast?.map (·.ty)).getD member.ty) := by
      rw [members, List.getLast?_cons]
      cases (binder.schema.membersAlong member.ty rest).getLast? <;> rfl
    rw [last, members]
    by_cases guards_ : (previous.isSome && binder.context.nullPropagation) = true
    · -- The value that the next member is read from becomes a guard.
      rw [if_pos guards_] at reads
      refine ih reads (.inr ⟨rfl, (Bool.and_eq_true _ _ ▸ guards_).2⟩) ?_
      rw [List.map_append, List.map_singleton, guarded_append]
      intro held computed
      obtain ⟨first, isFirst, later⟩ := bind_eq_ok.1 computed
      obtain rfl := denotes first isFirst
      split at later
      next null_ =>
        rw [Value.eq_null_of_isNull null_]
        exact (pure_eq_ok.1 later).symm
      next present =>
        rcases guarded_eq_ok isFirst with rfl | same
        · exact absurd rfl present
        · exact isNext same held later
    · rw [if_neg guards_] at reads
      obtain rfl : guards = [] := by
        rcases entered with none_ | ⟨isSome, propagates⟩
        · exact none_
        · simp [isSome, propagates] at guards_
      refine ih reads (.inl rfl) ?_
      intro held computed
      have isCurrent : ∃ first, eval rows scope current = .ok first := by
        simp only [List.map_nil, guarded, eval, bind_eq_ok] at computed
        obtain ⟨first, isFirst, -⟩ := computed
        exact ⟨first, isFirst⟩
      obtain ⟨first, isFirst⟩ := isCurrent
      obtain rfl := denotes first isFirst
      exact isNext isFirst held computed

theorem memberPath_means {path : String} {expr : Expr} (row : Value)
    (reads : binder.memberPath path = .ok expr) :
    binder.OperandMeans rows row (.member path) .member expr := by
  have isElement : Denotes rows row (.parameter binder.element) row := by
    simp only [Denotes, eval, element, List.lookup_cons_self]
    exact .of_ok row
  obtain ⟨denotes, kind⟩ :=
    memberSteps_means (memberSteps_of_memberPath reads) (.inl rfl) isElement
  refine ⟨?_, kind, by simp, by simp, by simp⟩
  rw [FilterReading.value]
  exact denotes

theorem OperandMeans.ofVerdict {filter : Filter} {expr : Expr} {verdict : Bool}
    (isVerdict : (binder.reading row).value filter = .bool verdict)
    (denotes : Denotes rows row expr (.bool verdict))
    (boolean : expr.type.scalarKind? = some .boolean)
    (kind : (binder.reading row).kind? filter = some .boolean)
    (notLiteral : ∀ literal, filter ≠ .literal literal) (role : OperandRole) :
    binder.OperandMeans rows row filter role expr where
  denotes := isVerdict ▸ denotes
  kind := boolean.trans kind.symm
  condition _ := ⟨verdict, isVerdict⟩
  call _ _ := ⟨verdict, isVerdict⟩
  notLiteral := notLiteral

theorem type_anyOf {tests : List Expr} (boolean : ∀ test ∈ tests, test.type = .scalar .boolean) :
    (anyOf tests).type = .scalar .boolean := by
  cases tests with
  | nil => rfl
  | cons first rest =>
    rcases List.eq_nil_or_concat rest with rfl | ⟨before, last, rfl⟩
    · exact boolean first List.mem_cons_self
    · rw [anyOf, List.concat_eq_append, List.foldl_append]
      rfl

theorem type_valueCall (function : TextFunction) (text : Expr) :
    (binder.valueCall function text).type.scalarKind? = function.resultType.scalarKind? := by
  unfold valueCall
  dsimp only
  split
  next =>
    show function.resultType.orNull.scalarKind? = _
    cases function <;> rfl
  next => rfl

theorem type_testCall {function : TextFunction} (pair : arity function = 2) (text other : Expr) :
    (binder.testCall function text other).type.scalarKind? = some .boolean := by
  unfold testCall
  dsimp only
  split
  next => rfl
  next =>
    rw [Expr.type, TextFunction.resultType_of_pair pair]
    rfl

theorem Binds.means (rows : List Value) (row : Value) {filter : Filter} {operand : Operand}
    (binds : binder.Binds filter operand) : binder.Means rows row filter operand := by
  -- A literal keeps its meaning open, until the operand beside it gives it a kind.
  induction binds with
  | both _ condition _ condition' first second =>
    have means := both_means (asCondition_means first condition) (asCondition_means second condition')
    exact .ofVerdict (by rw [FilterReading.value]; rfl) means rfl rfl (by simp) _
  | either _ condition _ condition' first second =>
    have means := either_means (asCondition_means first condition) (asCondition_means second condition')
    exact .ofVerdict (by rw [FilterReading.value]; rfl) means rfl rfl (by simp) _
  | negation _ condition inner =>
    refine .ofVerdict (by rw [FilterReading.value]) ?_ rfl rfl (by simp) _
    simp only [Denotes, eval]
    exact (asCondition_means inner condition).bind (.of_ok _)
  | compare comparison _ _ aligned first second =>
    obtain ⟨meansLeft, meansRight⟩ := aligned_means first second aligned
    exact .ofVerdict (by rw [FilterReading.value]) (meansLeft.comparison meansRight comparison) rfl
      rfl (by simp) _
  | @oneOf _ _ _ _ tests _ isTarget areTests inner =>
    obtain ⟨denotes, kind⟩ := asTarget_means inner isTarget
    have boolean : (anyOf tests).type = .scalar .boolean := type_anyOf fun test isTest => by
      obtain ⟨value, ty, rfl⟩ := (choiceTests_constant areTests).2 test isTest
      rfl
    refine .ofVerdict (by rw [FilterReading.value]) ?_ (by rw [boolean]; rfl) rfl (by simp) _
    have chosen := anyOf_means (choiceTests_means denotes kind areTests)
    rw [List.any_map] at chosen
    exact chosen
  | @valueCall _ called _ _ _ named unary _ isText target =>
    obtain ⟨value, denotes, same⟩ := asText_means target isText
    refine ⟨?_, ?_, by simp, fun _ isBoolean => ?_, by simp⟩
    · rw [FilterReading.value, FilterReading.call, named, ← same]
      exact valueCall_means unary denotes
    · rw [type_valueCall, FilterReading.kind?, named]
      rfl
    · rw [type_valueCall] at isBoolean
      exact absurd isBoolean (TextFunction.not_boolean_of_unary unary)
  | @testCall _ called _ _ _ _ text text' named pair _ isText _ isText' target argument =>
    obtain ⟨value, denotes, same⟩ := asText_means target isText
    obtain ⟨value', denotes', same'⟩ := asText_means argument isText'
    have means : Denotes rows row (binder.testCall called text text') _ :=
      testCall_means pair denotes denotes'
    obtain ⟨verdict, isVerdict⟩ := TextFunction.resultOn_test pair value.asText? value'.asText?
    refine .ofVerdict ?_ (isVerdict ▸ means) (type_testCall pair text text') ?_ (by simp) _
    · rw [FilterReading.value, FilterReading.call, named, ← same, ← same']
      exact isVerdict
    · rw [FilterReading.kind?, named, Except.toOption, Option.bind_some,
        TextFunction.resultType_of_pair pair]
      rfl
  | member reads => exact memberPath_means row reads
  | literal value => rfl

end Binder

end QueryProjection
