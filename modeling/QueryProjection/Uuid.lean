set_option autoImplicit false

namespace QueryProjection

structure Uuid where
  bits : Nat
  deriving DecidableEq

namespace Uuid

def hexValue (c : Char) : Option Nat :=
  if c.isDigit then some (c.toNat - '0'.toNat)
  else
    let lower := c.toLower
    if 'a' ≤ lower && lower ≤ 'f' then some (lower.toNat - 'a'.toNat + 10) else none

def readHex (digits : List Char) : Option Nat :=
  digits.foldl (fun total c => do return (← total) * 16 + (← hexValue c)) (some 0)

def groups : List Nat := [8, 4, 4, 4, 12]

def withoutHyphens : List Nat → List Char → Option (List Char)
  | [], [] => some []
  | [], _ :: _ => none
  | [last], chars => if chars.length == last then some chars else none
  | size :: next :: sizes, chars =>
      match chars.drop size with
      | '-' :: rest => (withoutHyphens (next :: sizes) rest).map (chars.take size ++ ·)
      | _ => none

def readHyphenated (chars : List Char) : Option Nat :=
  (withoutHyphens groups chars).bind readHex

def read? (text : String) : Option Uuid :=
  let chars := text.toList
  let urn := "urn:uuid:".toList
  let bits :=
    if chars.length == 32 then readHex chars
    else if chars.length == 36 then readHyphenated chars
    else if chars.length == 38 && chars.head? == some '\x7b' && chars.getLast? == some '\x7d' then
      readHyphenated ((chars.drop 1).take 36)
    else if chars.length == 45 && chars.take urn.length == urn then
      readHyphenated (chars.drop urn.length)
    else none
  bits.map Uuid.mk

def hexDigit (value : Nat) : Char :=
  Char.ofNat (if value < 10 then '0'.toNat + value else 'a'.toNat + value - 10)

def hexDigits : Nat → Nat → List Char
  | 0, _ => []
  | count + 1, bits => hexDigits count (bits / 16) ++ [hexDigit (bits % 16)]

def withHyphens : List Nat → List Char → List (List Char)
  | [], _ => []
  | size :: sizes, digits => digits.take size :: withHyphens sizes (digits.drop size)

def toText (uuid : Uuid) : String :=
  "-".intercalate ((withHyphens groups (hexDigits 32 uuid.bits)).map String.ofList)

end Uuid

end QueryProjection
