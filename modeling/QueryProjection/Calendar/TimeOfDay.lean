import QueryProjection.Calendar.Date

set_option autoImplicit false

namespace QueryProjection

/-- A leap second is the second before it with a nanosecond count of 10 ^ 9 or more. -/
structure TimeOfDay where
  second : Nat
  nanosecond : Nat
  deriving DecidableEq

namespace TimeOfDay

def secondsPerDay : Nat := 86400

def nanosPerSecond : Nat := 1000000000

def compareTime (left right : TimeOfDay) : Ordering :=
  (compare left.second right.second).then (compare left.nanosecond right.nanosecond)

def ofParts? (hour minute second nanosecond : Nat) : Option TimeOfDay :=
  if 23 < hour || 59 < minute || 60 < second then none
  else
    let start := hour * 3600 + minute * 60
    if second == 60 then some ⟨start + 59, nanosPerSecond + nanosecond⟩
    else some ⟨start + second, nanosecond⟩

def fractionText (nanosecond : Nat) : String :=
  if nanosecond == 0 then ""
  else if nanosecond % 1000000 == 0 then "." ++ Text.padded 3 (nanosecond / 1000000)
  else if nanosecond % 1000 == 0 then "." ++ Text.padded 6 (nanosecond / 1000)
  else "." ++ Text.padded 9 nanosecond

def toText (time : TimeOfDay) : String :=
  Text.padded 2 (time.second / 3600) ++ ":" ++ Text.padded 2 (time.second / 60 % 60) ++ ":" ++
    Text.padded 2 (time.second % 60 + time.nanosecond / nanosPerSecond) ++
      fractionText (time.nanosecond % nanosPerSecond)

def readFraction : List Char → Option (Nat × List Char)
  | '.' :: rest =>
      let (digits, rest) := Text.spanDigits rest
      let kept := digits.take 9
      if digits.isEmpty then none
      else some (Text.readDigits kept * Nat.pow 10 (9 - kept.length), rest)
  | chars => some (0, chars)

def read? (text : String) : Option TimeOfDay := do
  let (hour, rest) ← Text.takeNumber 1 2 (Text.trimLeft text.toList)
  let rest ← Date.skip ':' (Text.trimLeft rest)
  let (minute, rest) ← Text.takeNumber 1 2 (Text.trimLeft rest)
  let rest := Text.trimLeft rest
  if rest.isEmpty then ofParts? hour minute 0 0
  else
    let rest ← Date.skip ':' rest
    let (second, rest) ← Text.takeNumber 1 2 (Text.trimLeft rest)
    let (nanosecond, rest) ← readFraction rest
    if (Text.trimLeft rest).isEmpty then ofParts? hour minute second nanosecond else none

end TimeOfDay

end QueryProjection
