import QueryProjection.Value.Basic

set_option autoImplicit false

namespace QueryProjection

structure Parameter where
  name : String
  ty : DataType
  deriving DecidableEq

inductive SequenceMethod where
  | filter
  | select
  | orderBy
  | orderByDescending
  | thenBy
  | thenByDescending
  | skip
  | take
  | toList
  | toArray
  | asQueryable
  deriving DecidableEq

namespace SequenceMethod

def name : SequenceMethod → String
  | .filter => "Where"
  | .select => "Select"
  | .orderBy => "OrderBy"
  | .orderByDescending => "OrderByDescending"
  | .thenBy => "ThenBy"
  | .thenByDescending => "ThenByDescending"
  | .skip => "Skip"
  | .take => "Take"
  | .toList => "ToList"
  | .toArray => "ToArray"
  | .asQueryable => "AsQueryable"

def all : List SequenceMethod :=
  [.filter, .select, .orderBy, .orderByDescending, .thenBy, .thenByDescending, .skip, .take,
    .toList, .toArray, .asQueryable]

def ofName? (name : String) : Option SequenceMethod :=
  all.find? fun method => method.name == name

def startsOrder : SequenceMethod → Bool
  | .orderBy | .orderByDescending => true
  | _ => false

def isOrdering : SequenceMethod → Bool
  | .orderBy | .orderByDescending | .thenBy | .thenByDescending => true
  | _ => false

def isDescending : SequenceMethod → Bool
  | .orderByDescending | .thenByDescending => true
  | _ => false

end SequenceMethod

inductive BinaryOperator where
  | eq
  | ne
  | gt
  | ge
  | lt
  | le
  | andAlso
  | orElse
  deriving DecidableEq

def BinaryOperator.symbol : BinaryOperator → String
  | .eq => "=="
  | .ne => "!="
  | .gt => ">"
  | .ge => ">="
  | .lt => "<"
  | .le => "<="
  | .andAlso => "AndAlso"
  | .orElse => "OrElse"

inductive TextFunction where
  | contains
  | startsWith
  | endsWith
  | toLower
  | toUpper
  | length
  deriving DecidableEq

namespace TextFunction

def name : TextFunction → String
  | .contains => "Contains"
  | .startsWith => "StartsWith"
  | .endsWith => "EndsWith"
  | .toLower => "ToLower"
  | .toUpper => "ToUpper"
  | .length => "Length"

def all : List TextFunction :=
  [.contains, .startsWith, .endsWith, .toLower, .toUpper, .length]

def ofName? (name : String) : Option TextFunction :=
  all.find? fun function => function.name == name

def resultType : TextFunction → DataType
  | .contains | .startsWith | .endsWith => .scalar .boolean
  | .toLower | .toUpper => .scalar .string
  | .length => .scalar .int32

end TextFunction

inductive Expr where
  | source (ty : DataType)
  | parameter (param : Parameter)
  | constant (value : Value) (ty : DataType)
  | member (target : Expr) (name : String) (ty : DataType)
  | construct (ty : DataType) (bindings : List (String × Expr))
  | lambda (param : Parameter) (body : Expr)
  | call (method : SequenceMethod) (arguments : List Expr) (ty : DataType)
  | binary (operator : BinaryOperator) (left right : Expr)
  | negation (operand : Expr)
  | conditional (test whenTrue whenFalse : Expr) (ty : DataType)
  | convert (operand : Expr) (ty : DataType)
  | function (called : TextFunction) (arguments : List Expr)

structure Lambda where
  parameter : Parameter
  body : Expr

namespace Expr

def type : Expr → DataType
  | .source ty => ty
  | .parameter param => param.ty
  | .constant _ ty => ty
  | .member _ _ ty => ty
  | .construct ty _ => ty
  | .lambda _ body => body.type
  | .call _ _ ty => ty
  | .binary _ _ _ => .scalar .boolean
  | .negation _ => .scalar .boolean
  | .conditional _ _ _ ty => ty
  | .convert _ ty => ty
  | .function called _ => called.resultType

def allRows (typeName : String) : Expr :=
  .source (.collection .queryable (.named typeName))

def null (ty : DataType) : Expr := .constant .null ty

def equalsNull (operand : Expr) : Expr :=
  .binary .eq operand (null operand.type)

def ofLambda (lambda : Lambda) : Expr :=
  .lambda lambda.parameter lambda.body

/-- Methods that keep the elements yield a queryable from a queryable, and an enumerable from any
other sequence. -/
def callType (method : SequenceMethod) (arguments : List Expr) : DataType :=
  let sequence := (arguments.head?.map type).getD .object
  let element := sequence.elementType
  let kind := if sequence.collectionKind? = some .queryable then .queryable else .enumerable
  match method with
  | .select => .collection kind ((arguments[1]?.map type).getD .object)
  | .toList => .collection .list element
  | .toArray => .collection .array element
  | .asQueryable => .collection .queryable element
  | _ => .collection kind element

def apply (method : SequenceMethod) (arguments : List Expr) : Expr :=
  .call method arguments (callType method arguments)

def filteredBy (sequence : Expr) (predicate : Lambda) : Expr :=
  apply .filter [sequence, ofLambda predicate]

def selected (sequence : Expr) (selector : Lambda) : Expr :=
  apply .select [sequence, ofLambda selector]

def count (number : Int) : Expr :=
  .constant (.int number) (.scalar .int32)

def skipped (sequence : Expr) (number : Int) : Expr :=
  apply .skip [sequence, count number]

def taken (sequence : Expr) (number : Int) : Expr :=
  apply .take [sequence, count number]

def coercedTo (sequence : Expr) : Option CollectionKind → Expr
  | some .list => apply .toList [sequence]
  | some .array => apply .toArray [sequence]
  | some .queryable => apply .asQueryable [sequence]
  | some .enumerable => sequence
  | none => sequence

end Expr

def Lambda.returnType (lambda : Lambda) : DataType := lambda.body.type

end QueryProjection
