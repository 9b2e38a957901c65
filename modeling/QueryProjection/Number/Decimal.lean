import QueryProjection.Number.Binary64
import QueryProjection.Text.Basic

set_option autoImplicit false

namespace QueryProjection

structure Decimal where
  coefficient : Int
  scale : Nat
  deriving DecidableEq

namespace Decimal

def mostPlaces : Nat := 28

def coefficientLimit : Nat := Nat.pow 2 96

def ofInt (number : Int) : Decimal := ⟨number, 0⟩

def compareValue (left right : Decimal) : Ordering :=
  compare (left.coefficient * Nat.pow 10 right.scale) (right.coefficient * Nat.pow 10 left.scale)

def sameValue (left right : Decimal) : Bool :=
  compareValue left right == .eq

def signed (negative : Bool) (magnitude scale : Nat) : Decimal :=
  ⟨if negative then -magnitude else magnitude, scale⟩

def toText (decimal : Decimal) : String :=
  let digits := Text.padded (decimal.scale + 1) decimal.coefficient.natAbs
  let whole := digits.toList.take (digits.length - decimal.scale)
  let places := digits.toList.drop (digits.length - decimal.scale)
  (if decimal.coefficient < 0 then "-" else "") ++ String.ofList whole ++
    (if places.isEmpty then "" else "." ++ String.ofList places)

/-- A text longer than the digits can hold ends at the first digit that no longer fits, which rounds
the digits before it half up; an underscore or a second point there counts as zero. -/
def roundAt (negative : Bool) (magnitude scale : Nat) (next : Char) : Option Decimal :=
  if next.isDigit || next == '_' || next == '.' then
    if next.isDigit && 5 ≤ Text.digitValue next then
      if magnitude + 1 < coefficientLimit then some (signed negative (magnitude + 1) scale)
      else if scale == 0 then none
      else some (signed negative ((magnitude + 5) / 10) (scale - 1))
    else some (signed negative magnitude scale)
  else none

def readDigits (negative : Bool) :
    (hasDigit hasPoint : Bool) → (magnitude scale : Nat) → List Char → Option Decimal
  | hasDigit, _, magnitude, scale, [] =>
      if hasDigit then some (signed negative magnitude scale) else none
  | hasDigit, hasPoint, magnitude, scale, c :: rest =>
      if mostPlaces ≤ scale then roundAt negative magnitude scale c
      else if c.isDigit then
        let longer := magnitude * 10 + Text.digitValue c
        if longer < coefficientLimit then
          readDigits negative true hasPoint longer (if hasPoint then scale + 1 else 0) rest
        else if hasPoint then roundAt negative magnitude scale c
        else none
      else if c == '.' && !hasPoint then readDigits negative hasDigit true magnitude scale rest
      else if c == '_' && hasDigit then readDigits negative hasDigit hasPoint magnitude scale rest
      else none

def readPlain? (text : String) : Option Decimal :=
  match text.toList with
  | '-' :: rest => readDigits true false false 0 0 rest
  | '+' :: rest => readDigits false false false 0 0 rest
  | chars => readDigits false false false 0 0 chars

def withoutTrailingZeros (coefficient : Int) : Nat → Decimal
  | 0 => ⟨coefficient, 0⟩
  | scale + 1 =>
      if coefficient % 10 == 0 then withoutTrailingZeros (coefficient / 10) scale
      else ⟨coefficient, scale + 1⟩

def raise (decimal : Decimal) (exponent : Nat) : Option Decimal :=
  if mostPlaces < exponent then none
  else if exponent ≤ decimal.scale then some ⟨decimal.coefficient, decimal.scale - exponent⟩
  else
    let whole := decimal.coefficient * Nat.pow 10 (exponent - decimal.scale)
    if whole.natAbs < coefficientLimit then some ⟨whole, 0⟩ else none

def lower (decimal : Decimal) (exponent : Nat) : Option Decimal :=
  if decimal.scale + exponent ≤ mostPlaces then
    some ⟨decimal.coefficient, decimal.scale + exponent⟩
  else none

def isExponentMark (c : Char) : Bool := c == 'e' || c == 'E'

def readScientific? (text : String) : Option Decimal :=
  let (base, tail) := text.toList.span fun c => !isExponentMark c
  let exponent := fun (digits : List Char) =>
    if digits.isEmpty || !digits.all Char.isDigit then none else some (Text.readDigits digits)
  match readPlain? (String.ofList base), tail with
  | some decimal, _ :: '-' :: '+' :: digits => (exponent digits).bind decimal.lower
  | some decimal, _ :: '-' :: digits => (exponent digits).bind decimal.lower
  | some decimal, _ :: '+' :: digits => (exponent digits).bind decimal.raise
  | some decimal, _ :: digits => (exponent digits).bind decimal.raise
  | _, _ => none

/-- Reads either notation. An exponent counts wherever its mark stands, also behind digits that are
rounded away. -/
def read? (text : String) : Option Decimal :=
  if text.toList.any isExponentMark then readScientific? text else readPlain? text

def multiplied (left right : Nat × Nat) : Nat × Nat :=
  Binary64.nearest (left.1 * right.1, left.2 * right.2)

def roundedPower (power square : Nat × Nat) : (exponent fuel : Nat) → Nat × Nat
  | _, 0 => power
  | 0, _ => power
  | exponent, fuel + 1 =>
      roundedPower (if exponent % 2 == 1 then multiplied power square else power)
        (multiplied square square) (exponent / 2) fuel

/-- The whole part plus the places as a quotient, then rounded to the places again; each step gives
the nearest binary64 number. -/
def toBinary64 (decimal : Decimal) : Binary64 :=
  let negative := decimal.coefficient < 0
  let magnitude := decimal.coefficient.natAbs
  if decimal.scale == 0 then .ofRatio negative magnitude 1
  else
    let precision := Nat.pow 10 decimal.scale
    let whole := Binary64.nearest (magnitude / precision, 1)
    let part := Binary64.nearest (magnitude % precision, 1)
    let unit := Binary64.nearest (precision, 1)
    let places := Binary64.nearest (part.1 * unit.2, part.2 * unit.1)
    if places.1 == 0 then .ofRatio negative whole.1 whole.2
    else
      let sum := Binary64.nearest (whole.1 * places.2 + places.1 * whole.2, whole.2 * places.2)
      let power := roundedPower (1, 1) (10, 1) decimal.scale 5
      let scaled := multiplied sum power
      let rounded := (2 * scaled.1 + scaled.2) / (2 * scaled.2)
      .ofRatio negative (rounded * power.2) power.1

end Decimal

end QueryProjection
