import QueryProjection.Json.Number

set_option autoImplicit false

namespace QueryProjection.Json

def isSpace (c : Char) : Bool :=
  c == ' ' || c == '\n' || c == '\r' || c == '\t'

def skipSpace (chars : List Char) : List Char :=
  chars.dropWhile isSpace

def hexValue (c : Char) : Option Nat :=
  if c.isDigit then some (Text.digitValue c)
  else
    let lower := c.toLower
    if 'a' ≤ lower && lower ≤ 'f' then some (lower.toNat - 'a'.toNat + 10) else none

def readUnit : List Char → Option (Nat × List Char)
  | a :: b :: c :: d :: rest => do
      let unit := (((← hexValue a) * 16 + (← hexValue b)) * 16 + (← hexValue c)) * 16
      some (unit + (← hexValue d), rest)
  | _ => none

def isHighSurrogate (unit : Nat) : Bool := 0xD800 ≤ unit && unit < 0xDC00

def isLowSurrogate (unit : Nat) : Bool := 0xDC00 ≤ unit && unit < 0xE000

def readEscapedUnits (chars : List Char) : Option (Char × List Char) := do
  let (unit, rest) ← readUnit chars
  if isLowSurrogate unit then none
  else if isHighSurrogate unit then
    match rest with
    | '\\' :: 'u' :: rest => do
        let (low, rest) ← readUnit rest
        if isLowSurrogate low then
          some (Char.ofNat (0x10000 + (unit - 0xD800) * 0x400 + (low - 0xDC00)), rest)
        else none
    | _ => none
  else some (Char.ofNat unit, rest)

def simpleEscape (c : Char) : Option Char :=
  if c == '"' || c == '\\' || c == '/' then some c
  else if c == 'b' then some '\x08'
  else if c == 'f' then some '\x0c'
  else if c == 'n' then some '\n'
  else if c == 'r' then some '\r'
  else if c == 't' then some '\t'
  else none

def readChars : Nat → List Char → List Char → Option (String × List Char)
  | 0, _, _ => none
  | _ + 1, _, [] => none
  | fuel + 1, read, '\\' :: 'u' :: rest => do
      let (c, rest) ← readEscapedUnits rest
      readChars fuel (c :: read) rest
  | fuel + 1, read, '\\' :: c :: rest => do
      readChars fuel ((← simpleEscape c) :: read) rest
  | fuel + 1, read, c :: rest =>
      if c == '"' then some (String.ofList read.reverse, rest)
      else if c == '\\' || c.toNat < 0x20 then none
      else readChars fuel (c :: read) rest

def expectWord (word : String) (value : Json) (chars : List Char) : Option (Json × List Char) :=
  let size := word.length
  if chars.take size == word.toList then some (value, chars.drop size) else none

def expectChar (expected : Char) (chars : List Char) : Option (List Char) :=
  match skipSpace chars with
  | c :: rest => if c == expected then some rest else none
  | [] => none

mutual

/-- Every level spends fuel once before and once after it reads a character, so twice the number of
characters suffices. -/
def readValue : Nat → List Char → Option (Json × List Char)
  | 0, _ => none
  | fuel + 1, chars =>
      match skipSpace chars with
      | [] => none
      | c :: rest =>
          if c == '"' then (readChars fuel [] rest).map fun (text, rest) => (.string text, rest)
          else if c == '[' then
            match skipSpace rest with
            | ']' :: rest => some (.array [], rest)
            | rest => (readItems fuel rest).map fun (items, rest) => (.array items, rest)
          else if c == '\x7b' then
            match skipSpace rest with
            | '\x7d' :: rest => some (.object [], rest)
            | rest => (readMembers fuel rest).map fun (members, rest) => (.ofMembers members, rest)
          else if c == 'n' then expectWord "null" .null (c :: rest)
          else if c == 't' then expectWord "true" (.bool true) (c :: rest)
          else if c == 'f' then expectWord "false" (.bool false) (c :: rest)
          else readNumber (c :: rest)

def readItems : Nat → List Char → Option (List Json × List Char)
  | 0, _ => none
  | fuel + 1, chars => do
      let (item, rest) ← readValue fuel chars
      match skipSpace rest with
      | ']' :: rest => some ([item], rest)
      | ',' :: rest =>
          let (items, rest) ← readItems fuel rest
          some (item :: items, rest)
      | _ => none

def readMembers : Nat → List Char → Option (List (String × Json) × List Char)
  | 0, _ => none
  | fuel + 1, chars => do
      let (key, rest) ← readChars fuel [] (← expectChar '"' chars)
      let (value, rest) ← readValue fuel (← expectChar ':' rest)
      match skipSpace rest with
      | '\x7d' :: rest => some ([(key, value)], rest)
      | ',' :: rest =>
          let (members, rest) ← readMembers fuel rest
          some ((key, value) :: members, rest)
      | _ => none

end

def ofText? (text : String) : Option Json := do
  let chars := text.toList
  let (value, rest) ← readValue (2 * chars.length + 2) chars
  if (skipSpace rest).isEmpty then some value else none

end QueryProjection.Json
