import QueryProjection.Evaluation.Interpreter
import QueryProjection.Filter.Binder
import QueryProjection.Proofs.Value.Json

set_option autoImplicit false

namespace QueryProjection

def Value.isTrue (value : Value) : Bool :=
  value.asBool? == some true

/-- Comparisons of order need values that are comparable; null is not. -/
def Comparison.holds (comparison : Comparison) (left right : Value) : Bool :=
  match comparison with
  | .eq => left.equals right
  | .ne => !left.equals right
  | .gt => Value.compare? left right == some .gt
  | .ge => Value.compare? left right == some .gt || Value.compare? left right == some .eq
  | .lt => Value.compare? left right == some .lt
  | .le => Value.compare? left right == some .lt || Value.compare? left right == some .eq

/-- A function of no text is null, and a test of no text is false. -/
def TextFunction.resultOn (function : TextFunction) (text argument : Option String) : Value :=
  match function, text, argument with
  | .contains, some text, some part => .bool (Text.contains text part)
  | .startsWith, some text, some part => .bool (Text.startsWith text part)
  | .endsWith, some text, some part => .bool (Text.endsWith text part)
  | .contains, _, _ | .startsWith, _, _ | .endsWith, _, _ => .bool false
  | .toLower, some text, _ => .string (Text.toLower text)
  | .toUpper, some text, _ => .string (Text.toUpper text)
  | .length, some text, _ => .int text.length
  | .toLower, none, _ | .toUpper, none, _ | .length, none, _ => .null

def Schema.membersAlong (schema : Schema) : DataType → List String → List MemberDecl
  | _, [] => []
  | ty, name :: rest =>
      match ty.nonNull with
      | .named typeName =>
          match schema.member? typeName name with
          | some member => member :: membersAlong schema member.ty rest
          | none => []
      | _ => []

structure FilterReading where
  schema : Schema
  elementType : String
  offset : Int
  row : Value

namespace FilterReading

def members (reading : FilterReading) (path : String) : List MemberDecl :=
  reading.schema.membersAlong (.named reading.elementType) (Text.pathSegments path)

def typeAt (reading : FilterReading) (path : String) : DataType :=
  ((reading.members path).getLast?.map fun member => member.ty).getD (.named reading.elementType)

def kind? (reading : FilterReading) : Filter → Option ScalarKind
  | .member path => (reading.typeAt path).scalarKind?
  | .function name _ =>
      (Binder.functionNamed name).toOption.bind fun function => function.resultType.scalarKind?
  | .literal value => value.naturalKind?
  | _ => some .boolean

def literalAs (reading : FilterReading) (kind : Option ScalarKind) (literal : FilterLiteral) :
    Value :=
  match kind with
  | some kind => (literal.coerce reading.offset kind).toOption.getD .null
  | none => .null

/-- An operand beside another one. A literal follows the other operand, unless both are literals. -/
def beside (reading : FilterReading) (other : Filter) : Filter → (own : Value) → Value
  | .literal literal, own =>
      match other with
      | .literal _ => own
      | _ => reading.literalAs (reading.kind? other) literal
  | _, own => own

/-- An operand of a function on text. -/
def textOf (reading : FilterReading) : Filter → (own : Value) → Option String
  | .literal literal, _ => (reading.literalAs (some .string) literal).asText?
  | _, own => own.asText?

def call (name : String) (text argument : Option String) : Value :=
  match Binder.functionNamed name with
  | .ok function => function.resultOn text argument
  | .error _ => .null

def chooses (reading : FilterReading) (chosen : Filter) (own : Value) : Filter → Bool
  | .literal literal => own.equals (reading.literalAs (reading.kind? chosen) literal)
  | _ => false

def value (reading : FilterReading) : Filter → Value
  | .both left right => .bool ((value reading left).isTrue && (value reading right).isTrue)
  | .either left right => .bool ((value reading left).isTrue || (value reading right).isTrue)
  | .negation inner => .bool !(value reading inner).isTrue
  | .compare left comparison right =>
      .bool (comparison.holds (reading.beside right left (value reading left))
        (reading.beside left right (value reading right)))
  | .oneOf inner choices => .bool (choices.any (reading.chooses inner (value reading inner)))
  | .function name [target] => call name (reading.textOf target (value reading target)) none
  | .function name [target, argument] =>
      call name (reading.textOf target (value reading target))
        (reading.textOf argument (value reading argument))
  | .function _ _ => .null
  | .member path => reading.row.along ((reading.members path).map fun member => member.name)
  | .literal literal => reading.literalAs literal.naturalKind? literal

/-- A filter holds when it is true; a member holds when it holds true. -/
def holds (reading : FilterReading) (filter : Filter) : Bool :=
  (reading.value filter).isTrue

end FilterReading

end QueryProjection
