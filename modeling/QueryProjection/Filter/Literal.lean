import QueryProjection.Error
import QueryProjection.Expr.Basic
import QueryProjection.Filter.Basic
import QueryProjection.Value.Json

set_option autoImplicit false

namespace QueryProjection.FilterLiteral

def mismatch {α : Type} (kind : ScalarKind) (literal : FilterLiteral) : Outcome α :=
  .error (.typeMismatch ("expected " ++ kind.name ++ ", got " ++ literal.kindName ++ " literal"))

def orMismatch {α : Type} (kind : ScalarKind) (literal : FilterLiteral) (value : Option α) :
    Outcome α :=
  match value with
  | some held => .ok held
  | none => mismatch kind literal

def integer? (kind : ScalarKind) (numeral : Numeral) : Option Int :=
  let number := numeral.truncate
  let fits := if kind = .int32 then Value.fitsInt32 number else Json.fitsSigned number
  if numeral.isIntegral && fits then some number else none

def decimal (numeral : Numeral) : Outcome Decimal :=
  match numeral.toDecimal? with
  | some decimal => .ok decimal
  | none => .error (.typeMismatch (numeral.toText ++ " does not fit a decimal"))

def midnight : TimeOfDay := ⟨0, 0⟩

def coerce (offset : Int) (kind : ScalarKind) (literal : FilterLiteral) : Outcome Value :=
  match kind, literal with
  | _, .null => .ok .null
  | .boolean, .bool value => .ok (.bool value)
  | .int32, .number numeral => do
      return .int (← orMismatch kind literal (integer? kind numeral))
  | .int64, .number numeral => do
      return .int (← orMismatch kind literal (integer? kind numeral))
  | .double, .number numeral => .ok (.float numeral.toBinary64)
  | .decimal, .number numeral => do return .decimal (← decimal numeral)
  | .string, .string text => .ok (.string text)
  | .enumeration, .string text => .ok (.enumeration text)
  | .uuid, .uuid value => .ok (.uuid value)
  | .uuid, .string text => do return .uuid (← orMismatch kind literal (Uuid.read? text))
  | .dateTime, .dateTime value => .ok (.dateTime (value.atOffset offset))
  | .dateTime, .date value => .ok (.dateTime (.ofLocal value midnight offset))
  | .dateTime, .string text => do
      let value ← orMismatch kind literal (Timestamp.read? text)
      return .dateTime (value.atOffset offset)
  | .date, .date value => .ok (.date value)
  | .date, .dateTime value => .ok (.date (value.atOffset offset).localDate)
  | .time, .time value => .ok (.time value)
  | _, _ => mismatch kind literal

def typedAs (offset : Int) (ty : DataType) (literal : FilterLiteral) : Outcome Expr :=
  match literal, ty.scalarKind? with
  | .null, _ => .ok (.null ty)
  | _, some kind => do return .constant (← coerce offset kind literal) (.scalar kind)
  | _, none =>
      .error (.typeMismatch
        ("cannot compare " ++ ty.toText ++ " with a " ++ literal.kindName ++ " literal"))

def naturalKind? : FilterLiteral → Option ScalarKind
  | .null => none
  | .bool _ => some .boolean
  | .number numeral => some (if numeral.isIntegral then .int64 else .decimal)
  | .uuid _ => some .uuid
  | .dateTime _ => some .dateTime
  | .date _ => some .date
  | .time _ => some .time
  | .string _ => some .string

def typedNaturally (offset : Int) (literal : FilterLiteral) : Outcome Expr :=
  match literal.naturalKind? with
  | none => .ok (.null .object)
  | some kind => literal.typedAs offset (.scalar kind)

end QueryProjection.FilterLiteral
