import QueryProjection.Number.Binary64

set_option autoImplicit false

namespace QueryProjection.Binary64

inductive Tie where
  | up
  | toEven
  deriving DecidableEq

def Tie.takesBelow (tie : Tie) (below : Nat) : Bool :=
  tie == .toEven && below % 2 == 0

structure DecimalDigits where
  digits : Nat
  point : Int
  deriving DecidableEq

def decimalPoint (numerator denominator : Nat) : Int :=
  if denominator ≤ numerator then (toString (numerator / denominator)).length
  else 1 - ((toString ((denominator + numerator - 1) / numerator - 1)).length : Int)

def roundingBounds (mantissa : Nat) (exponent : Int) : Nat × Nat × Nat × Nat :=
  -- Below a power of two the numbers are half as far apart.
  let narrow := mantissa == Nat.pow 2 52 && leastExponent < exponent
  let up := Nat.pow 2 exponent.toNat
  let down := Nat.pow 2 (-exponent).toNat
  let middle := 4 * mantissa
  (( middle - (if narrow then 1 else 2)) * up, middle * up, (middle + 2) * up, 4 * down)

def nearestOfLength? (tie : Tie) (mantissa : Nat) (exponent : Int) (point : Int) (length : Nat) :
    Option Nat :=
  let (low, middle, high, denominator) := roundingBounds mantissa exponent
  let scale := point - length
  let unit := denominator * Nat.pow 10 scale.toNat
  let lift := Nat.pow 10 (-scale).toNat
  let readsBack := fun (digits : Nat) =>
    let image := digits * unit
    if mantissa % 2 == 0 then low * lift ≤ image && image ≤ high * lift
    else low * lift < image && image < high * lift
  let below := middle * lift / unit
  let distanceBelow := middle * lift - below * unit
  let distanceAbove := (below + 1) * unit - middle * lift
  let belowWins := distanceBelow < distanceAbove ||
    (distanceBelow == distanceAbove && tie.takesBelow below)
  if distanceBelow == 0 then some below
  else if readsBack below && (!readsBack (below + 1) || belowWins) then some below
  else if readsBack (below + 1) then some (below + 1)
  else none

def shortestFrom (tie : Tie) (mantissa : Nat) (exponent : Int) (point : Int) :
    (length remaining : Nat) → Nat × Nat
  | length, 0 => (0, length)
  | length, remaining + 1 =>
      match nearestOfLength? tie mantissa exponent point length with
      | some digits => (digits, length)
      | none => shortestFrom tie mantissa exponent point (length + 1) remaining

/-- Seventeen digits always read back. -/
def shortest (tie : Tie) (mantissa : Nat) (exponent : Int) : DecimalDigits :=
  let size := magnitude (.finite false mantissa exponent)
  let point := decimalPoint size.1 size.2
  let (digits, length) := shortestFrom tie mantissa exponent point 1 17
  if digits == Nat.pow 10 length then ⟨1, point + 1⟩ else ⟨digits, point⟩

end QueryProjection.Binary64
