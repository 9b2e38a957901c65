import QueryProjection.Proofs.Filter.Verdicts

set_option autoImplicit false

namespace QueryProjection

open Outcome Evaluation

namespace Value

inductive SameInstant : Value → Value → Prop where
  | refl (value : Value) : SameInstant value value
  | shown (instant : Timestamp) (offset offset' : Int) :
      SameInstant (.dateTime (instant.atOffset offset)) (.dateTime (instant.atOffset offset'))

namespace SameInstant

variable {left left' right right' : Value}

theorem of_eq (same : left = right) : SameInstant left right :=
  same ▸ .refl left

theorem apply_eq {α : Type} {relate : Value → Value → α}
    (unmoved : ∀ (instant : Timestamp) (offset offset' : Int) (other : Value),
      relate (.dateTime (instant.atOffset offset)) other =
          relate (.dateTime (instant.atOffset offset')) other ∧
        relate other (.dateTime (instant.atOffset offset)) =
          relate other (.dateTime (instant.atOffset offset')))
    (first : SameInstant left left') (second : SameInstant right right') :
    relate left right = relate left' right' := by
  have isFirst : relate left right = relate left' right := by
    cases first with
    | refl => rfl
    | shown instant offset offset' => exact (unmoved instant offset offset' right).1
  rw [isFirst]
  cases second with
  | refl => rfl
  | shown instant offset offset' => exact (unmoved instant offset offset' left').2

theorem compare?_eq (first : SameInstant left left') (second : SameInstant right right') :
    compare? left right = compare? left' right' :=
  apply_eq (fun _ _ _ other => by cases other <;> exact ⟨rfl, rfl⟩) first second

theorem equals_eq (first : SameInstant left left') (second : SameInstant right right') :
    left.equals right = left'.equals right' :=
  apply_eq (fun _ _ _ other => by cases other <;> exact ⟨rfl, rfl⟩) first second

theorem compareBy_eq (first : SameInstant left left') (second : SameInstant right right')
    (operator : BinaryOperator) : compareBy operator left right = compareBy operator left' right' := by
  unfold compareBy
  rw [first.compare?_eq second, first.equals_eq second]

end SameInstant

end Value

open Value (SameInstant)

structure Expr.Alike (rows : List Value) (row : Value) (same : Value → Value → Prop)
    (expr expr' : Expr) : Prop where
  value : Related same (eval rows [(elementName, row)] expr) (eval rows [(elementName, row)] expr')
  type : expr.type = expr'.type
  isConstant : expr.isConstant = expr'.isConstant

inductive Operand.Alike (rows : List Value) (row : Value) : Operand → Operand → Prop where
  | typed (role : OperandRole) {expr expr' : Expr} (alike : expr.Alike rows row Eq expr') :
      Alike rows row (.typed role expr) (.typed role expr')
  | literal (value : FilterLiteral) : Alike rows row (.literal value) (.literal value)

namespace Expr.Alike

variable {rows : List Value} {row : Value} {left left' right right' : Expr}

theorem refl (expr : Expr) : expr.Alike rows row Eq expr :=
  ⟨Agree.refl _, rfl, rfl⟩

theorem shown (alike : left.Alike rows row Eq right) : left.Alike rows row SameInstant right :=
  ⟨alike.value.mono fun _ _ => .of_eq, alike.type, alike.isConstant⟩

theorem comparison (first : left.Alike rows row SameInstant left')
    (second : right.Alike rows row SameInstant right') (comparison : Comparison) :
    (Expr.binary comparison.operator left right).Alike rows row Eq
      (.binary comparison.operator left' right') where
  value := by
    have notAnd : comparison.operator ≠ .andAlso := by cases comparison <;> simp [Comparison.operator]
    have notOr : comparison.operator ≠ .orElse := by cases comparison <;> simp [Comparison.operator]
    rw [eval_comparison notAnd notOr, eval_comparison notAnd notOr]
    exact .bind first.value fun _ _ isFirst => .bind second.value fun _ _ isSecond =>
      Agree.of_eq (by rw [isFirst.compareBy_eq isSecond])
  type := rfl
  isConstant := rfl

theorem binary (operator : BinaryOperator) (first : left.Alike rows row Eq left')
    (second : right.Alike rows row Eq right') :
    (Expr.binary operator left right).Alike rows row Eq (.binary operator left' right') :=
  ⟨eval_binary_agree operator first.value second.value, rfl, rfl⟩

theorem negation (operand : left.Alike rows row Eq left') :
    (Expr.negation left).Alike rows row Eq (.negation left') where
  value := by
    simp only [eval]
    exact Agree.bind operand.value fun _ => .refl _
  type := rfl
  isConstant := rfl

theorem equalsNull (operand : left.Alike rows row Eq left') :
    left.equalsNull.Alike rows row Eq left'.equalsNull := by
  unfold Expr.equalsNull
  rw [operand.type]
  exact operand.binary .eq (.refl _)

theorem unary (function : TextFunction) (text : left.Alike rows row Eq left') :
    (Expr.function function [left]).Alike rows row Eq (.function function [left']) where
  value := by
    rw [eval_unary, eval_unary]
    exact Agree.bind text.value fun _ => .refl _
  type := rfl
  isConstant := rfl

theorem pair (function : TextFunction) (text : left.Alike rows row Eq left')
    (other : right.Alike rows row Eq right') :
    (Expr.function function [left, right]).Alike rows row Eq (.function function [left', right']) where
  value := by
    rw [eval_pair, eval_pair]
    exact Agree.bind text.value fun _ => Agree.bind other.value fun _ => .refl _
  type := rfl
  isConstant := rfl

end Expr.Alike

namespace FilterLiteral

/-- A date that is to be an instant, or an instant that is to be a date. -/
def Moves (literal : FilterLiteral) (kind : Option ScalarKind) : Prop :=
  match literal with
  | .date _ => kind = some .dateTime
  | .dateTime _ => kind = some .date
  | _ => False

variable {rows : List Value} {row : Value}

theorem coerce_shown (offset offset' : Int) {kind : ScalarKind} {literal : FilterLiteral}
    (stays : ¬literal.Moves (some kind)) :
    Related SameInstant (literal.coerce offset kind) (literal.coerce offset' kind) := by
  have unmoved {outcome : Outcome Value} : Related SameInstant outcome outcome :=
    (Agree.refl outcome).mono fun _ _ => .of_eq
  cases kind with
  | dateTime =>
    cases literal with
    | dateTime instant => exact .ok (.shown instant offset offset')
    | date day => exact absurd rfl stays
    | string text =>
      exact .bind (Agree.refl _) fun instant _ same => same ▸ .ok (.shown instant offset offset')
    | _ => exact unmoved
  | date =>
    cases literal with
    | dateTime instant => exact absurd rfl stays
    | _ => exact unmoved
  | _ => cases literal <;> exact unmoved

theorem typedAs_shown (offset offset' : Int) {ty : DataType} {literal : FilterLiteral}
    (stays : ¬literal.Moves ty.scalarKind?) :
    Related (Expr.Alike rows row SameInstant) (literal.typedAs offset ty)
      (literal.typedAs offset' ty) := by
  unfold typedAs
  split
  next => exact .ok (Expr.Alike.refl _).shown
  next kind _ isKind =>
    exact .bind (coerce_shown offset offset' (isKind ▸ stays)) fun _ _ shown =>
      .ok ⟨.ok shown, rfl, rfl⟩
  next => exact .failed _ _

theorem typedNaturally_shown (offset offset' : Int) (literal : FilterLiteral) :
    Related (Expr.Alike rows row SameInstant) (literal.typedNaturally offset)
      (literal.typedNaturally offset') := by
  unfold typedNaturally
  split
  next => exact .ok (Expr.Alike.refl _).shown
  next kind natural =>
    refine typedAs_shown offset offset' ?_
    cases literal <;> cases natural <;> simp [Moves, DataType.scalarKind?, DataType.nonNull]

theorem typedAs_text (offset offset' : Int) (literal : FilterLiteral) :
    literal.typedAs offset (.scalar .string) = literal.typedAs offset' (.scalar .string) := by
  cases literal <;> rfl

end FilterLiteral

namespace Filter

mutual

def comparisons : Filter → List (Filter × Filter)
  | .both left right => left.comparisons ++ right.comparisons
  | .either left right => left.comparisons ++ right.comparisons
  | .negation operand => operand.comparisons
  | .compare left _ right =>
      (left, right) :: (right, left) :: (left.comparisons ++ right.comparisons)
  | .oneOf operand choices => choices.map (fun choice => (choice, operand)) ++ operand.comparisons
  | .function _ arguments => listComparisons arguments
  | .member _ => []
  | .literal _ => []

def listComparisons : List Filter → List (Filter × Filter)
  | [] => []
  | filter :: rest => filter.comparisons ++ listComparisons rest

end

def operandKind? (schema : Schema) (elementType : String) : Filter → Option ScalarKind
  | .member path =>
      let names := Text.pathSegments path
      let members := schema.membersAlong (.named elementType) names
      if members.length = names.length then members.getLast?.bind fun member => member.ty.scalarKind?
      else none
  | .literal value => value.naturalKind?
  | _ => none

/-- No date literal is compared with an instant, and no literal of an instant with a date. -/
def KeepsDatesApart (schema : Schema) (elementType : String) (filter : Filter) : Prop :=
  ∀ pair ∈ filter.comparisons, ∀ literal, pair.1 = .literal literal →
    ¬literal.Moves (pair.2.operandKind? schema elementType)

namespace KeepsDatesApart

variable {schema : Schema} {elementType : String} {filter filter' : Filter}

theorem mono (apart : filter.KeepsDatesApart schema elementType)
    (part : filter'.comparisons ⊆ filter.comparisons) : filter'.KeepsDatesApart schema elementType :=
  fun pair isPair => apart pair (part isPair)

end KeepsDatesApart

end Filter

def Operand.kind? : Operand → Option ScalarKind
  | .typed _ expr => expr.type.scalarKind?
  | .literal value => value.naturalKind?

namespace Operand

variable {rows : List Value} {row : Value} {operand operand' other other' : Operand}

theorem Alike.asCondition (alike : operand.Alike rows row operand') :
    Related (Expr.Alike rows row Eq) operand.asCondition operand'.asCondition := by
  cases alike with
  | typed role alike =>
    have kind := congrArg DataType.scalarKind? alike.type
    cases role with
    | member =>
      exact .bind (requireBoolean_agree kind) fun _ _ _ => .ok (alike.binary .eq (.refl _))
    | call => exact .bind (requireBoolean_agree kind) fun _ _ _ => .ok alike
    | condition => exact .ok alike
  | literal value =>
    cases value with
    | bool verdict => exact .ok (.refl _)
    | _ => exact .failed _ _

theorem Alike.asText (offset offset' : Int) (alike : operand.Alike rows row operand') :
    Related (Expr.Alike rows row Eq) (operand.asText offset) (operand'.asText offset') := by
  cases alike with
  | @typed role expr expr' alike =>
    have textual : isTextual expr = isTextual expr' := by rw [isTextual, isTextual, alike.type]
    simp only [Operand.asText, textual]
    split
    next => exact .ok alike
    next => exact .failed _ _
  | literal value =>
    simp only [Operand.asText, value.typedAs_text offset offset']
    exact (Agree.refl _).mono fun expr _ same => same ▸ .refl expr

theorem Alike.asTarget (offset offset' : Int) (alike : operand.Alike rows row operand') :
    Related (Expr.Alike rows row SameInstant) (operand.asTarget offset)
      (operand'.asTarget offset') := by
  cases alike with
  | typed role alike => exact .ok alike.shown
  | literal value => exact value.typedNaturally_shown offset offset'

theorem Alike.aligned (offset offset' : Int) (alike : operand.Alike rows row operand')
    (alikeOther : other.Alike rows row other')
    (stays : ∀ literal, operand = .literal literal → ¬literal.Moves other.kind?)
    (staysOther : ∀ literal, other = .literal literal → ¬literal.Moves operand.kind?) :
    Related (fun pair pair' => pair.1.Alike rows row SameInstant pair'.1 ∧
        pair.2.Alike rows row SameInstant pair'.2)
      (operand.aligned offset other) (operand'.aligned offset' other') := by
  cases alike with
  | typed role alike =>
    cases alikeOther with
    | typed role' alikeOther => exact .ok ⟨alike.shown, alikeOther.shown⟩
    | literal value =>
      simp only [Operand.aligned, ← alike.type]
      exact .bind (FilterLiteral.typedAs_shown offset offset' (staysOther value rfl)) fun _ _ typed =>
        .ok ⟨alike.shown, typed⟩
  | literal value =>
    cases alikeOther with
    | typed role' alikeOther =>
      simp only [Operand.aligned, ← alikeOther.type]
      exact .bind (FilterLiteral.typedAs_shown offset offset' (stays value rfl)) fun _ _ typed =>
        .ok ⟨typed, alikeOther.shown⟩
    | literal value' =>
      exact .bind (FilterLiteral.typedNaturally_shown offset offset' value) fun _ _ first =>
        .bind (FilterLiteral.typedNaturally_shown offset offset' value') fun _ _ second =>
          .ok ⟨first, second⟩

end Operand

namespace Binder

variable {rows : List Value} {row : Value}

def inZone (binder : Binder) (timeZone : Option Int) : Binder :=
  ⟨binder.schema, binder.elementType, ⟨binder.context.nullPropagation, timeZone⟩⟩

variable {binder : Binder} {timeZone : Option Int}

theorem memberSteps_inZone (path : String) (previous : Option String) (guards : List Expr)
    (current : Expr) (segments : List String) :
    (binder.inZone timeZone).memberSteps path previous guards current segments =
      binder.memberSteps path previous guards current segments := by
  induction segments generalizing previous guards current with
  | nil => rfl
  | cons segment rest ih =>
    simp only [memberSteps, ih]
    rfl

theorem memberPath_inZone (path : String) :
    (binder.inZone timeZone).memberPath path = binder.memberPath path := by
  unfold memberPath
  split
  next => rfl
  next => exact memberSteps_inZone _ _ _ _ _

theorem valueCall_alike (function : TextFunction) {text text' : Expr}
    (alike : text.Alike rows row Eq text') :
    (binder.valueCall function text).Alike rows row Eq
      ((binder.inZone timeZone).valueCall function text') := by
  have call := alike.unary function
  have same : (binder.inZone timeZone).mayBeNull text' = binder.mayBeNull text := by
    simp only [mayBeNull, inZone, alike.isConstant]
  simp only [valueCall, same]
  split
  next => exact ⟨eval_conditional_agree _ _ alike.equalsNull.value (.refl _) call.value, rfl, rfl⟩
  next => exact call

theorem testCall_alike (function : TextFunction) {text text' other other' : Expr}
    (alike : text.Alike rows row Eq text') (alikeOther : other.Alike rows row Eq other') :
    (binder.testCall function text other).Alike rows row Eq
      ((binder.inZone timeZone).testCall function text' other') := by
  have call := alike.pair function alikeOther
  have same : (binder.inZone timeZone).mayBeNull text' = binder.mayBeNull text := by
    simp only [mayBeNull, inZone, alike.isConstant]
  simp only [testCall, same, alike.type]
  split
  next => exact (alike.binary .ne (.refl _)).binary .andAlso call
  next => exact call

theorem choiceTests_alike {target target' : Expr}
    (alike : target.Alike rows row SameInstant target') {choices : List Filter}
    (stays : ∀ literal, .literal literal ∈ choices → ¬literal.Moves target.type.scalarKind?) :
    Related (List.Forall₂ (Expr.Alike rows row Eq)) (binder.choiceTests target choices)
      ((binder.inZone timeZone).choiceTests target' choices) := by
  induction choices with
  | nil => exact .ok .nil
  | cons choice rest ih =>
    cases choice with
    | literal literal =>
      simp only [choiceTests, ← alike.type]
      have first := stays literal List.mem_cons_self
      exact .bind (FilterLiteral.typedAs_shown _ _ first) fun _ _ typed =>
        .bind (ih fun other member => stays other (List.mem_cons_of_mem _ member)) fun _ _ later =>
          .ok (.cons (alike.comparison typed .eq) later)
    | _ => exact .failed _ _

theorem anyOf_alike {tests tests' : List Expr}
    (each : List.Forall₂ (Expr.Alike rows row Eq) tests tests') :
    (anyOf tests).Alike rows row Eq (anyOf tests') :=
  anyOf_related (.refl _) (fun first second => first.binary .orElse second) each

theorem membersAlong_length {path : String} {previous : Option String} {guards : List Expr}
    {current expr : Expr} {segments : List String}
    (reads : binder.memberSteps path previous guards current segments = .ok expr) :
    (binder.schema.membersAlong current.type segments).length = segments.length := by
  induction segments generalizing previous guards current with
  | nil => rfl
  | cons segment rest ih =>
    obtain ⟨typeName, member, -, named, resolved, reads⟩ := memberSteps_cons reads
    simp only [Schema.membersAlong, named, Schema.member?_of_resolve resolved, List.length_cons,
      Nat.add_right_cancel_iff]
    exact ih reads

theorem operandKind?_member {path : String} {expr : Expr} (row : Value)
    (reads : binder.memberPath path = .ok expr) :
    Filter.operandKind? binder.schema binder.elementType (.member path) =
      (binder.reading row).kind? (.member path) := by
  have length := membersAlong_length (memberSteps_of_memberPath reads)
  have named : binder.element.ty = .named binder.elementType := rfl
  simp only [Expr.type, named] at length
  simp only [Filter.operandKind?, length, if_true, FilterReading.kind?, FilterReading.typeAt,
    FilterReading.members, reading]
  cases last : (binder.schema.membersAlong (.named binder.elementType)
      (Text.pathSegments path)).getLast? with
  | some member => rfl
  | none => rfl

theorem moves_operandKind? {filter : Filter} {operand : Operand} {literal : FilterLiteral}
    (bound : binder.operand filter = .ok operand)
    (moves : literal.Moves ((binder.reading row).kind? filter)) :
    literal.Moves (filter.operandKind? binder.schema binder.elementType) := by
  cases filter with
  | member path =>
    simp only [Binder.operand, bind_eq_ok] at bound
    obtain ⟨expr, reads, -⟩ := bound
    rwa [operandKind?_member row reads]
  | literal value => exact moves
  | function name arguments =>
    simp only [FilterReading.kind?] at moves
    generalize functionNamed name = called at moves
    cases called with
    | error cause => cases literal <;> cases moves
    | ok function => cases literal <;> cases function <;> cases moves
  | _ => cases literal <;> cases moves

theorem operand_kind {filter : Filter} {operand : Operand} (row : Value)
    (bound : binder.operand filter = .ok operand) :
    operand.kind? = (binder.reading row).kind? filter := by
  have means := (operand_eq_ok.1 bound).means [] row
  cases operand with
  | typed role expr => exact means.kind
  | literal value =>
    obtain rfl : filter = .literal value := means
    rfl

theorem stays_beside {left right : Filter} {first second : Operand}
    (boundLeft : binder.operand left = .ok first) (boundRight : binder.operand right = .ok second)
    (apart : ∀ literal, left = .literal literal →
      ¬literal.Moves (right.operandKind? binder.schema binder.elementType)) :
    ∀ literal, first = .literal literal → ¬literal.Moves second.kind? := by
  rintro literal rfl moves
  have isLiteral : left = .literal literal := (operand_eq_ok.1 boundLeft).means [] .null
  rw [operand_kind .null boundRight] at moves
  exact apart literal isLiteral (moves_operandKind? boundRight moves)

theorem operand_alike (binder : Binder) (rows : List Value) (row : Value) (timeZone : Option Int)
    (filter : Filter) (apart : filter.KeepsDatesApart binder.schema binder.elementType) :
    Related (Operand.Alike rows row) (binder.operand filter)
      ((binder.inZone timeZone).operand filter) := by
  match filter with
  | .both left right =>
    have first := operand_alike binder rows row timeZone left (apart.mono (List.subset_append_left _ _))
    have second := operand_alike binder rows row timeZone right (apart.mono (List.subset_append_right _ _))
    simp only [Binder.operand]
    exact .bind first fun _ _ first => .bind first.asCondition fun _ _ test =>
      .bind second fun _ _ second => .bind second.asCondition fun _ _ test' =>
      .ok (.typed _ (test.binary .andAlso test'))
  | .either left right =>
    have first := operand_alike binder rows row timeZone left (apart.mono (List.subset_append_left _ _))
    have second := operand_alike binder rows row timeZone right (apart.mono (List.subset_append_right _ _))
    simp only [Binder.operand]
    exact .bind first fun _ _ first => .bind first.asCondition fun _ _ test =>
      .bind second fun _ _ second => .bind second.asCondition fun _ _ test' =>
      .ok (.typed _ (test.binary .orElse test'))
  | .negation inner =>
    have operand := operand_alike binder rows row timeZone inner (apart.mono (List.Subset.refl _))
    simp only [Binder.operand]
    exact .bind operand fun _ _ operand => .bind operand.asCondition fun _ _ test =>
      .ok (.typed _ test.negation)
  | .compare left comparison right =>
    obtain ⟨apartLeft, apartRight, apart⟩ := by
      simpa only [Filter.KeepsDatesApart, Filter.comparisons, List.forall_mem_cons] using apart
    have first := operand_alike binder rows row timeZone left fun pair isPair =>
      apart pair (List.mem_append_left _ isPair)
    have second := operand_alike binder rows row timeZone right fun pair isPair =>
      apart pair (List.mem_append_right _ isPair)
    simp only [Binder.operand]
    refine .bind first.and_ok fun _ _ boundFirst => .bind second.and_ok fun _ _ boundSecond => ?_
    obtain ⟨first, isFirst⟩ := boundFirst
    obtain ⟨second, isSecond⟩ := boundSecond
    -- The zone only moves a date that is taken for an instant, and none stands beside one here.
    have stays := stays_beside isFirst isSecond apartLeft
    have staysOther := stays_beside isSecond isFirst apartRight
    exact .bind (first.aligned _ _ second stays staysOther) fun _ _ pair =>
      .ok (.typed _ (pair.1.comparison pair.2 comparison))
  | .oneOf inner choices =>
    obtain ⟨apartChoices, apart⟩ := by
      simpa only [Filter.KeepsDatesApart, Filter.comparisons, List.forall_mem_append,
        List.forall_mem_map] using apart
    simp only [Binder.operand]
    have operand := operand_alike binder rows row timeZone inner apart
    refine .bind operand.and_ok fun _ _ boundOperand => ?_
    obtain ⟨operand, bound⟩ := boundOperand
    refine .bind (operand.asTarget _ _).and_ok fun _ _ made => ?_
    obtain ⟨target, isTarget⟩ := made
    have kind := (asTarget_means ((operand_eq_ok.1 bound).means rows row) isTarget).2
    refine .bind (choiceTests_alike target fun literal member moves => ?_) fun _ _ each =>
      .ok (.typed _ (anyOf_alike each))
    -- The target has the kind of the operand, so a choice that moves beside it moves beside the
    -- operand.
    exact apartChoices _ member literal rfl (moves_operandKind? bound (kind ▸ moves))
  | .function name [target] =>
    have operand := operand_alike binder rows row timeZone target
      (apart.mono (List.subset_append_left _ _))
    simp only [Binder.operand]
    exact .bind (Agree.refl _) fun function _ same => same ▸
      .bind operand fun _ _ operand => .bind (operand.asText _ _) fun _ _ text =>
      .ok (.typed _ (valueCall_alike function text))
  | .function name [target, argument] =>
    have operand := operand_alike binder rows row timeZone target
      (apart.mono (List.subset_append_left _ _))
    have other := operand_alike binder rows row timeZone argument (apart.mono
      (List.subset_append_of_subset_right _ (List.subset_append_left _ _)))
    simp only [Binder.operand]
    exact .bind (Agree.refl _) fun function _ same => same ▸
      .bind operand fun _ _ operand => .bind (operand.asText _ _) fun _ _ text =>
      .bind other fun _ _ other => .bind (other.asText _ _) fun _ _ text' =>
      .ok (.typed _ (testCall_alike function text text'))
  | .function name [] | .function name (_ :: _ :: _ :: _) =>
    simp only [Binder.operand]
    split
    next => exact .failed _ _
    next => exact .failed _ _
  | .member path =>
    simp only [Binder.operand, memberPath_inZone]
    exact .bind (Agree.refl _) fun expr _ same => same ▸ .ok (.typed _ (.refl expr))
  | .literal value =>
    simp only [Binder.operand]
    exact .ok (.literal value)
termination_by filter

end Binder

/-- The time zone of a request decides nothing but how dates and instants compare: a filter that keeps
them apart is bound in every zone or in none, and its predicates give the same verdict on every row,
or all of them fail. -/
theorem Filter.bind_in_zones (schema : Schema) (elementType : String) (filter : Filter)
    (propagates : Bool) (timeZone timeZone' : Option Int)
    (apart : filter.KeepsDatesApart schema elementType) :
    ((∃ predicate, filter.bind schema elementType ⟨propagates, timeZone⟩ = .ok predicate) ↔
        ∃ predicate, filter.bind schema elementType ⟨propagates, timeZone'⟩ = .ok predicate) ∧
      ∀ predicate predicate' : Lambda,
        filter.bind schema elementType ⟨propagates, timeZone⟩ = .ok predicate →
        filter.bind schema elementType ⟨propagates, timeZone'⟩ = .ok predicate' →
        ∀ (rows : List Value) (row : Value),
          Agree (predicate.valueOn rows row) (predicate'.valueOn rows row) := by
  have alike (rows : List Value) (row : Value) :
      Related (fun predicate predicate' : Lambda =>
          Agree (predicate.valueOn rows row) (predicate'.valueOn rows row))
        (filter.bind schema elementType ⟨propagates, timeZone⟩)
        (filter.bind schema elementType ⟨propagates, timeZone'⟩) := by
    unfold Filter.bind Binder.predicate
    have operand := Binder.operand_alike ⟨schema, elementType, ⟨propagates, timeZone⟩⟩ rows row
      timeZone' filter apart
    exact .bind (Agree.refl _) fun _ _ _ =>
      .bind (.bind operand fun _ _ operand => operand.asCondition) fun _ _ condition =>
        .ok condition.value
  refine ⟨(alike [] .null).exists_iff, fun predicate predicate' bound bound' rows row => ?_⟩
  have both := alike rows row
  rw [bound, bound'] at both
  cases both with
  | ok agree => exact agree

def voyageSchema : Schema :=
  ⟨[⟨"Voyage", .entity, none,
    [⟨"Departure", .scalar .dateTime⟩, ⟨"Day", .nullable (.scalar .date)⟩]⟩]⟩

def departsInMay : Filter :=
  .both
    (.compare (.member "Departure") .ge (.literal (.dateTime ⟨1588370400, 0, 0⟩)))
    (.oneOf (.member "Day") [.literal (.date ⟨2020, 5, 1⟩)])

theorem Filter.bind_in_zones_departsInMay :
    departsInMay.KeepsDatesApart voyageSchema "Voyage" ∧
      ∃ predicate predicate' : Lambda,
        departsInMay.bind voyageSchema "Voyage" ⟨true, none⟩ = .ok predicate ∧
        departsInMay.bind voyageSchema "Voyage" ⟨true, some 7200⟩ = .ok predicate' ∧
        ∀ (rows : List Value) (row : Value),
          Agree (predicate.valueOn rows row) (predicate'.valueOn rows row) := by
  have departure : operandKind? voyageSchema "Voyage" (.member "Departure") = some .dateTime := by rfl
  have day : operandKind? voyageSchema "Voyage" (.member "Day") = some .date := by rfl
  have apart : departsInMay.KeepsDatesApart voyageSchema "Voyage" := by
    simp [departsInMay, Filter.KeepsDatesApart, Filter.comparisons, departure, day,
      FilterLiteral.Moves]
  obtain ⟨predicate, bound, -⟩ := exists_of_toOption_any
    (departsInMay.bind voyageSchema "Voyage" ⟨true, none⟩) (fun _ => true) (by rfl)
  have inZones := Filter.bind_in_zones voyageSchema "Voyage" departsInMay true none (some 7200) apart
  obtain ⟨predicate', bound'⟩ := inZones.1.1 ⟨predicate, bound⟩
  exact ⟨apart, predicate, predicate', bound, bound', inZones.2 predicate predicate' bound bound'⟩

example :
    let departed : Filter := .compare (.member "Departure") .ge (.literal (.date ⟨2020, 5, 1⟩))
    let voyage : Value := .record "Voyage" [("Departure", .dateTime ⟨1588291200, 0, 0⟩)]
    let verdict timeZone := (do
      (← departed.bind voyageSchema "Voyage" ⟨false, timeZone⟩).valueOn [] voyage).toOption
    (verdict none).map Value.isTrue = some true ∧
      (verdict (some (-7200))).map Value.isTrue = some false := by
  decide +kernel

end QueryProjection
