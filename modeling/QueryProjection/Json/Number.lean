import QueryProjection.Json.Basic
import QueryProjection.Text.Basic

set_option autoImplicit false

namespace QueryProjection.Json

def wordLimit : Nat := Nat.pow 2 64

def greatestPower : Nat := 308

def nearestPower (exponent : Nat) : Nat × Nat :=
  Binary64.nearest (Nat.pow 10 exponent, 1)

def dividedBy (number divisor : Nat × Nat) : Nat × Nat :=
  Binary64.nearest (number.1 * divisor.2, number.2 * divisor.1)

def scaleDown (number : Nat × Nat) : (exponent fuel : Nat) → Nat × Nat
  | _, 0 => (0, 1)
  | exponent, fuel + 1 =>
      if number.1 == 0 then number
      else if exponent ≤ greatestPower then dividedBy number (nearestPower exponent)
      else scaleDown (dividedBy number (nearestPower greatestPower)) (exponent - greatestPower) fuel

def floatOf? (negative : Bool) (significand : Nat) (exponent : Int) : Option Json :=
  let number := Binary64.nearest (significand, 1)
  if number.1 == 0 then some (.float (.zero negative))
  else if exponent < 0 then
    let scaled := scaleDown number exponent.natAbs 4
    some (.float (.ofRatio negative scaled.1 scaled.2))
  else if greatestPower < exponent.natAbs then none
  else
    let power := nearestPower exponent.natAbs
    match Binary64.ofRatio negative (number.1 * power.1) (number.2 * power.2) with
    | .finite negative mantissa exponent => some (.float (.finite negative mantissa exponent))
    | _ => none

def keepWhole : Nat → List Char → Nat × Nat
  | kept, [] => (kept, 0)
  | kept, c :: rest =>
      let longer := kept * 10 + Text.digitValue c
      if longer < wordLimit then keepWhole longer rest else (kept, rest.length + 1)

def keepPlaces : Nat → Nat → List Char → Nat × Nat
  | kept, count, [] => (kept, count)
  | kept, count, c :: rest =>
      let longer := kept * 10 + Text.digitValue c
      if longer < wordLimit then keepPlaces longer (count + 1) rest else (kept, count)

def integerOf? (negative : Bool) (digits : List Char) : Option Json :=
  let (kept, dropped) := keepWhole 0 digits
  -- Minus zero and what is too long for an integer are floats.
  if dropped == 0 && !negative then some (.integer kept)
  else if dropped == 0 && 0 < kept && kept ≤ Nat.pow 2 63 then some (.integer (-kept))
  else floatOf? negative kept dropped

def readExponent : List Char → Option (Int × List Char)
  | [] => none
  | c :: rest =>
      let (down, chars) :=
        if c == '-' then (true, rest) else (false, if c == '+' then rest else c :: rest)
      let (digits, rest) := Text.spanDigits chars
      let exponent : Int := Text.readDigits digits
      if digits.isEmpty then none else some (if down then -exponent else exponent, rest)

def readNumber (chars : List Char) : Option (Json × List Char) := do
  let (negative, chars) := match chars with
    | '-' :: rest => (true, rest)
    | _ => (false, chars)
  let (whole, rest) := Text.spanDigits chars
  if whole.isEmpty || (whole.head? == some '0' && 1 < whole.length) then none
  else
    let (kept, dropped) := keepWhole 0 whole
    let (places, afterPoint) := match rest with
      | '.' :: tail => Text.spanDigits tail
      | _ => ([], rest)
    if rest.head? == some '.' && places.isEmpty then none
    else
      let (significand, count) := keepPlaces kept 0 places
      let start : Int := dropped - count
      match afterPoint with
      | mark :: tail =>
          if mark == 'e' || mark == 'E' then
            let (exponent, rest) ← readExponent tail
            let number ← floatOf? negative significand (start + exponent)
            some (number, rest)
          else if places.isEmpty then (integerOf? negative whole).map (·, rest)
          else (floatOf? negative significand start).map (·, afterPoint)
      | [] =>
          if places.isEmpty then (integerOf? negative whole).map (·, rest)
          else (floatOf? negative significand start).map (·, afterPoint)

end QueryProjection.Json
