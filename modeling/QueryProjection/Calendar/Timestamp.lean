import QueryProjection.Calendar.TimeOfDay

set_option autoImplicit false

namespace QueryProjection.Offset

def isMinus (c : Char) : Bool := c == '-' || c == '−'

def readHoursMinutes (between : List Char → Option (List Char)) :
    List Char → Option (Int × List Char)
  | [] => none
  | sign :: rest =>
      if sign != '+' && !isMinus sign then none
      else do
        let (hours, rest) ← Text.takeNumber 2 2 rest
        let (minutes, rest) ← Text.takeNumber 2 2 (← between rest)
        if 59 < minutes then none
        else
          let seconds : Int := hours * 3600 + minutes * 60
          some (if isMinus sign then -seconds else seconds, rest)

/-- Colons and blanks between hours and minutes are skipped, and so is all that follows. The offset
is less than a day. -/
def read? (text : String) : Option Int := do
  let between := fun (chars : List Char) =>
    some (chars.dropWhile fun c => c == ':' || Text.isBlank c)
  let (seconds, _) ← readHoursMinutes between text.toList
  if seconds.natAbs < TimeOfDay.secondsPerDay then some seconds else none

def toText (seconds : Int) : String :=
  let minutes := (seconds.natAbs + 30) / 60
  (if seconds < 0 then "-" else "+") ++ Text.padded 2 (minutes / 60) ++ ":" ++
    Text.padded 2 (minutes % 60)

end QueryProjection.Offset

namespace QueryProjection

structure Timestamp where
  second : Int
  nanosecond : Nat
  offset : Int
  deriving DecidableEq

namespace Timestamp

def compareInstant (left right : Timestamp) : Ordering :=
  (compare left.second right.second).then (compare left.nanosecond right.nanosecond)

def sameInstant (left right : Timestamp) : Bool :=
  compareInstant left right == .eq

def atOffset (offset : Int) (timestamp : Timestamp) : Timestamp :=
  { timestamp with offset := offset }

def ofLocal (date : Date) (time : TimeOfDay) (offset : Int) : Timestamp :=
  ⟨date.dayNumber * TimeOfDay.secondsPerDay + time.second - offset, time.nanosecond, offset⟩

def localDate (timestamp : Timestamp) : Date :=
  .ofDayNumber ((timestamp.second + timestamp.offset) / TimeOfDay.secondsPerDay)

def localTime (timestamp : Timestamp) : TimeOfDay :=
  ⟨((timestamp.second + timestamp.offset) % TimeOfDay.secondsPerDay).toNat, timestamp.nanosecond⟩

def localText (timestamp : Timestamp) : String :=
  timestamp.localDate.toText ++ "T" ++ timestamp.localTime.toText

def toText (timestamp : Timestamp) : String :=
  timestamp.localText ++ Offset.toText timestamp.offset

def toZuluText (timestamp : Timestamp) : String :=
  if timestamp.offset == 0 then timestamp.localText ++ "Z" else timestamp.toText

def readOffset : List Char → Option (Int × List Char)
  | [] => none
  | c :: rest =>
      if c.toUpper == 'Z' then some (0, rest)
      else do
        let (offset, rest) ← Offset.readHoursMinutes (Date.skip ':') (c :: rest)
        if offset.natAbs < TimeOfDay.secondsPerDay then some (offset, rest) else none

def skipDateMark : List Char → Option (List Char)
  | c :: rest => if c.toUpper == 'T' || c == ' ' then some rest else none
  | [] => none

def read? (text : String) : Option Timestamp := do
  let (year, rest) ← Text.takeNumber 4 4 text.toList
  let (month, rest) ← Text.takeNumber 2 2 (← Date.skip '-' rest)
  let (day, rest) ← Text.takeNumber 2 2 (← Date.skip '-' rest)
  let (hour, rest) ← Text.takeNumber 2 2 (← skipDateMark rest)
  let (minute, rest) ← Text.takeNumber 2 2 (← Date.skip ':' rest)
  let (second, rest) ← Text.takeNumber 2 2 (← Date.skip ':' rest)
  let (nanosecond, rest) ← TimeOfDay.readFraction rest
  let (offset, rest) ← readOffset rest
  let date ← Date.ofParts? year month day
  let time ← TimeOfDay.ofParts? hour minute second nanosecond
  if rest.isEmpty then some (ofLocal date time offset) else none

end Timestamp

end QueryProjection
