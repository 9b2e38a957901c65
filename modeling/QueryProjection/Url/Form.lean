import QueryProjection.Text.Basic
import QueryProjection.Url.Utf8

set_option autoImplicit false

namespace QueryProjection.Percent

def hexDigit (value : Nat) : Char :=
  Char.ofNat (if value < 10 then '0'.toNat + value else 'A'.toNat + value - 10)

def hexValue? (byte : Nat) : Option Nat :=
  let c := (Char.ofNat byte).toLower
  if c.isDigit then some (c.toNat - '0'.toNat)
  else if 'a' ≤ c && c ≤ 'f' then some (c.toNat - 'a'.toNat + 10)
  else none

def encodeByte (byte : Nat) : List Char :=
  ['%', hexDigit (byte / 16), hexDigit (byte % 16)]

def encode (keep : Char → Bool) (chars : List Char) : List Char :=
  chars.flatMap fun c =>
    if keep c then [c] else (Utf8.encodeChar c).flatMap encodeByte

def percentByte : Nat := '%'.toNat

def decode : List Nat → List Nat
  | first :: second :: third :: rest =>
      if first == percentByte then
        match hexValue? second, hexValue? third with
        | some high, some low => (high * 16 + low) :: decode rest
        | _, _ => first :: decode (second :: third :: rest)
      else first :: decode (second :: third :: rest)
  | bytes => bytes

end QueryProjection.Percent

namespace QueryProjection.Form

def isPlain (c : Char) : Bool :=
  c.isAlphanum || c == '*' || c == '-' || c == '.' || c == '_'

def spaceToPlus (c : Char) : Char := if c == ' ' then '+' else c

def plusToSpace (c : Char) : Char := if c == '+' then ' ' else c

def encodeText (text : String) : List Char :=
  (Percent.encode (fun c => isPlain c || c == ' ') text.toList).map spaceToPlus

def decodeText (chars : List Char) : String :=
  String.ofList (Utf8.decode (Percent.decode (Utf8.encode (chars.map plusToSpace))))

def encodePair (pair : String × String) : List Char :=
  encodeText pair.1 ++ '=' :: encodeText pair.2

def decodePair (chars : List Char) : String × String :=
  (decodeText (chars.takeWhile fun c => c != '='),
    decodeText ((chars.dropWhile fun c => c != '=').drop 1))

def joinPairs : List (List Char) → List Char
  | [] => []
  | [pair] => pair
  | pair :: rest => pair ++ '&' :: joinPairs rest

def encode (pairs : List (String × String)) : String :=
  String.ofList (joinPairs (pairs.map encodePair))

/-- Empty pairs are dropped. -/
def decode (query : String) : List (String × String) :=
  ((Text.splitAtChar '&' query.toList).filter fun pair => !pair.isEmpty).map decodePair

end QueryProjection.Form
