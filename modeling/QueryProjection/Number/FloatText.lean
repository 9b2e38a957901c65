import QueryProjection.Number.Shortest
import QueryProjection.Text.Basic

set_option autoImplicit false

namespace QueryProjection.Binary64

def zeros (count : Nat) : String :=
  String.ofList (List.replicate count '0')

def positional (digits : String) (point : Int) : String :=
  if point ≤ 0 then "0." ++ zeros (-point).toNat ++ digits
  else if digits.length ≤ point.toNat then digits ++ zeros (point.toNat - digits.length)
  else
    String.ofList (digits.toList.take point.toNat) ++ "." ++
      String.ofList (digits.toList.drop point.toNat)

def scientific (digits : String) (point : Int) : String :=
  let first := String.ofList (digits.toList.take 1)
  let rest := String.ofList (digits.toList.drop 1)
  let exponent := point - 1
  let mark := if exponent < 0 then "e-" else "e+"
  first ++ (if rest.isEmpty then "" else "." ++ rest) ++ mark ++ toString exponent.natAbs

def sign (negative : Bool) : String := if negative then "-" else ""

def plainText : Binary64 → String
  | .nan => "NaN"
  | .infinite negative => sign negative ++ "inf"
  | .finite negative 0 _ => sign negative ++ "0"
  | .finite negative mantissa exponent =>
      let decimal := shortest .up mantissa exponent
      sign negative ++ positional (toString decimal.digits) decimal.point

def markedText : Binary64 → String
  | .finite negative 0 _ => sign negative ++ "0.0"
  | .finite negative mantissa exponent =>
      let decimal := shortest .toEven mantissa exponent
      let digits := toString decimal.digits
      sign negative ++
        if decimal.point ≤ -5 || 16 < decimal.point then scientific digits decimal.point
        else if (digits.length : Int) ≤ decimal.point then positional digits decimal.point ++ ".0"
        else positional digits decimal.point
  | number => plainText number

def readDecimal (negative : Bool) (chars : List Char) : Option Binary64 :=
  let (whole, rest) := Text.spanDigits chars
  let (fraction, rest) := match rest with
    | '.' :: tail => Text.spanDigits tail
    | _ => ([], rest)
  let significand := Text.readDigits (whole ++ fraction)
  if whole.isEmpty && fraction.isEmpty then none
  else match rest with
    | [] => some (ofScientific negative significand (-fraction.length))
    | mark :: tail =>
        if mark.toLower == 'e' then
          let (down, tail) := match tail with
            | '-' :: digits => (true, digits)
            | '+' :: digits => (false, digits)
            | digits => (false, digits)
          let (digits, rest) := Text.spanDigits tail
          if digits.isEmpty || !rest.isEmpty then none
          else
            let exponent : Int := Text.readDigits digits
            some (ofScientific negative significand
              ((if down then -exponent else exponent) - fraction.length))
        else none

def read? (text : String) : Option Binary64 :=
  let (negative, chars) := match text.toList with
    | '-' :: rest => (true, rest)
    | '+' :: rest => (false, rest)
    | chars => (false, chars)
  let word := String.ofList (chars.map Char.toLower)
  if word == "nan" then some .nan
  else if word == "inf" || word == "infinity" then some (.infinite negative)
  else readDecimal negative chars

end QueryProjection.Binary64
