set_option autoImplicit false

namespace QueryProjection

inductive ScalarKind where
  | boolean
  | int32
  | int64
  | double
  | decimal
  | string
  | uuid
  | dateTime
  | date
  | time
  | enumeration
  deriving DecidableEq

def ScalarKind.name : ScalarKind → String
  | .boolean => "Boolean"
  | .int32 => "Int32"
  | .int64 => "Int64"
  | .double => "Double"
  | .decimal => "Decimal"
  | .string => "String"
  | .uuid => "Guid"
  | .dateTime => "DateTimeOffset"
  | .date => "Date"
  | .time => "TimeOfDay"
  | .enumeration => "Enum"

inductive CollectionKind where
  | list
  | array
  | enumerable
  | queryable
  deriving DecidableEq

def CollectionKind.name : CollectionKind → String
  | .list => "List"
  | .array => "Array"
  | .enumerable => "IEnumerable"
  | .queryable => "IQueryable"

inductive DataType where
  | scalar (kind : ScalarKind)
  | nullable (inner : DataType)
  | named (name : String)
  | collection (kind : CollectionKind) (element : DataType)
  | object
  deriving DecidableEq

namespace DataType

def orNull : DataType → DataType
  | .nullable inner => .nullable inner
  | ty => .nullable ty

def nonNull : DataType → DataType
  | .nullable inner => inner.nonNull
  | ty => ty

def isNullable : DataType → Bool
  | .nullable _ => true
  | _ => false

def isCollection (ty : DataType) : Bool :=
  match ty.nonNull with
  | .collection _ _ => true
  | _ => false

def collectionKind? (ty : DataType) : Option CollectionKind :=
  match ty.nonNull with
  | .collection kind _ => some kind
  | _ => none

def scalarKind? (ty : DataType) : Option ScalarKind :=
  match ty.nonNull with
  | .scalar kind => some kind
  | _ => none

def isScalar (ty : DataType) : Bool :=
  ty.scalarKind?.isSome

def elementType (ty : DataType) : DataType :=
  match ty.nonNull with
  | .collection _ element => element
  | other => other

/-- The registered name that the type, or the element type of a collection, refers to. -/
def typeName? (ty : DataType) : Option String :=
  match ty.elementType with
  | .named name => some name
  | _ => none

def layers : DataType → List DataType
  | .nullable inner => inner.layers
  | .collection kind element => .collection kind element :: element.layers
  | ty => [ty]

def replaceElement (ty element : DataType) : DataType :=
  match ty.nonNull with
  | .collection kind _ => .collection kind element
  | _ => element

def toText : DataType → String
  | .scalar kind => kind.name
  | .nullable inner => inner.toText ++ "?"
  | .named name => name
  | .collection kind element => kind.name ++ "<" ++ element.toText ++ ">"
  | .object => "Object"

/-- Collections of any kind are interchangeable when their elements are the same up to null. -/
def listEquivalent (left right : DataType) : Bool :=
  match left.nonNull, right.nonNull with
  | .collection _ element, .collection _ element' =>
      element.nonNull == element'.nonNull
  | ty, ty' => ty == ty'

theorem nonNull_nonNull (ty : DataType) :
    ty.nonNull.nonNull = ty.nonNull := by
  induction ty with
  | nullable inner ih => simpa [nonNull] using ih
  | _ => rfl

theorem nonNull_orNull (ty : DataType) : ty.orNull.nonNull = ty.nonNull := by
  cases ty <;> rfl

theorem listEquivalent_refl (ty : DataType) : listEquivalent ty ty = true := by
  simp only [listEquivalent]
  split <;> simp_all

end DataType

end QueryProjection
