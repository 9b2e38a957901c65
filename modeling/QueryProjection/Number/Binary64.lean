set_option autoImplicit false

namespace QueryProjection

/-- Finite numbers have a mantissa below 2 ^ 53 and an exponent from -1074 to 971; the mantissa is
at least 2 ^ 52 unless the exponent is the least one, so equal bit patterns are equal terms. -/
inductive Binary64 where
  | nan
  | infinite (negative : Bool)
  | finite (negative : Bool) (mantissa : Nat) (exponent : Int)
  deriving DecidableEq

namespace Binary64

def leastExponent : Int := -1074

def greatestExponent : Int := 971

def zero (negative : Bool) : Binary64 := .finite negative 0 leastExponent

def divideToEven (numerator denominator : Nat) : Nat :=
  let quotient := numerator / denominator
  let twice := 2 * (numerator % denominator)
  if denominator < twice || (twice == denominator && quotient % 2 == 1) then quotient + 1
  else quotient

def inUnits (numerator denominator : Nat) (exponent : Int) : Nat × Nat :=
  (numerator * Nat.pow 2 (-exponent).toNat, denominator * Nat.pow 2 exponent.toNat)

def unitExponent (numerator denominator : Nat) : Int :=
  let least : Int := max ((numerator.log2 : Int) - denominator.log2 - 53) leastExponent
  let units := inUnits numerator denominator least
  if units.1 / units.2 < Nat.pow 2 53 then least else least + 1

def ofRatio (negative : Bool) (numerator denominator : Nat) : Binary64 :=
  if numerator == 0 then zero negative
  else
    let exponent := unitExponent numerator denominator
    let units := inUnits numerator denominator exponent
    let mantissa := divideToEven units.1 units.2
    let carried := mantissa == Nat.pow 2 53
    let mantissa := if carried then Nat.pow 2 52 else mantissa
    let exponent := if carried then exponent + 1 else exponent
    if greatestExponent < exponent then .infinite negative
    else .finite negative mantissa exponent

def ofInt (number : Int) : Binary64 :=
  ofRatio (number < 0) number.natAbs 1

def ofScientific (negative : Bool) (significand : Nat) (exponent : Int) : Binary64 :=
  let order : Int := (toString significand).length + exponent
  -- Numbers far out of range are settled first, so the powers of ten below stay small.
  if significand == 0 then zero negative
  else if 310 < order then .infinite negative
  else if order < -330 then zero negative
  else ofRatio negative (significand * Nat.pow 10 exponent.toNat)
    (Nat.pow 10 (-exponent).toNat)

def isFinite : Binary64 → Bool
  | .finite _ _ _ => true
  | _ => false

def magnitude : Binary64 → Nat × Nat
  | .finite _ mantissa exponent =>
      (mantissa * Nat.pow 2 exponent.toNat, Nat.pow 2 (-exponent).toNat)
  | _ => (0, 1)

def signedUnits (negative : Bool) (mantissa : Nat) (exponent least : Int) : Int :=
  let units : Int := mantissa * Nat.pow 2 (exponent - least).toNat
  if negative then -units else units

def compare? : Binary64 → Binary64 → Option Ordering
  | .nan, _ => none
  | _, .nan => none
  | .infinite left, .infinite right => some (compare right.toNat left.toNat)
  | .infinite negative, .finite _ _ _ => some (if negative then .lt else .gt)
  | .finite _ _ _, .infinite negative => some (if negative then .gt else .lt)
  | .finite negative mantissa exponent, .finite negative' mantissa' exponent' =>
      let least := min exponent exponent'
      some (compare (signedUnits negative mantissa exponent least)
        (signedUnits negative' mantissa' exponent' least))

def equal (left right : Binary64) : Bool :=
  compare? left right == some .eq

def nearest (ratio : Nat × Nat) : Nat × Nat :=
  (ofRatio false ratio.1 ratio.2).magnitude

end Binary64

end QueryProjection
