import QueryProjection.Number.Decimal
import QueryProjection.Number.FloatText

set_option autoImplicit false

namespace QueryProjection

structure Numeral where
  coefficient : Int
  scale : Int
  deriving DecidableEq

namespace Numeral

def isIntegral (numeral : Numeral) : Bool :=
  numeral.coefficient % Nat.pow 10 numeral.scale.toNat == 0

def truncate (numeral : Numeral) : Int :=
  (numeral.coefficient * Nat.pow 10 (-numeral.scale).toNat).tdiv (Nat.pow 10 numeral.scale.toNat)

def toBinary64 (numeral : Numeral) : Binary64 :=
  .ofScientific (numeral.coefficient < 0) numeral.coefficient.natAbs (-numeral.scale)

def normalizeWithin (coefficient scale : Int) : Nat → Numeral
  | 0 => ⟨coefficient, scale⟩
  | digits + 1 =>
      if coefficient == 0 then ⟨0, 0⟩
      else if coefficient % 10 == 0 then normalizeWithin (coefficient / 10) (scale - 1) digits
      else ⟨coefficient, scale⟩

def normalize (numeral : Numeral) : Numeral :=
  normalizeWithin numeral.coefficient numeral.scale (toString numeral.coefficient.natAbs).length

def signedExponent (exponent : Int) : String :=
  (if exponent < 0 then "-" else "+") ++ toString exponent.natAbs

/-- More than five zeros after the point, or more than fifteen before it, are written as an
exponent. -/
def toText (numeral : Numeral) : String :=
  let digits := toString numeral.coefficient.natAbs
  let length : Int := digits.length
  let sign := if numeral.coefficient < 0 then "-" else ""
  if 5 < numeral.scale - length then
    let places := String.ofList (digits.toList.drop 1)
    sign ++ String.ofList (digits.toList.take 1) ++
      (if places.isEmpty then "" else "." ++ places) ++
      "E" ++ signedExponent (length - numeral.scale - 1)
  else if 15 < -numeral.scale then sign ++ digits ++ "e" ++ signedExponent (-numeral.scale)
  else sign ++ Binary64.positional digits (length - numeral.scale)

def toDecimal? (numeral : Numeral) : Option Decimal :=
  Decimal.read? numeral.normalize.toText

def read? (text : String) : Option Numeral :=
  let (negative, chars) := match text.toList with
    | '-' :: rest => (true, rest)
    | '+' :: rest => (false, rest)
    | chars => (false, chars)
  let (whole, rest) := Text.spanDigits chars
  let (places, rest) := match rest with
    | '.' :: tail => Text.spanDigits tail
    | _ => ([], rest)
  let magnitude : Int := Text.readDigits (whole ++ places)
  let coefficient := if negative then -magnitude else magnitude
  if whole.isEmpty && places.isEmpty then none
  else match rest with
    | [] => some ⟨coefficient, places.length⟩
    | mark :: tail =>
        let (down, digits) := match tail with
          | '-' :: digits => (true, digits)
          | '+' :: digits => (false, digits)
          | digits => (false, digits)
        if mark.toLower != 'e' || digits.isEmpty || !digits.all Char.isDigit then none
        else
          let exponent : Int := Text.readDigits digits
          some ⟨coefficient, places.length - (if down then -exponent else exponent)⟩

end Numeral

end QueryProjection
