import QueryProjection.Text.Basic

set_option autoImplicit false

namespace QueryProjection

structure Date where
  year : Int
  month : Nat
  day : Nat
  deriving DecidableEq

namespace Date

def isLeap (year : Int) : Bool :=
  year % 4 == 0 && (year % 100 != 0 || year % 400 == 0)

def daysInMonth (year : Int) (month : Nat) : Nat :=
  if month == 2 then (if isLeap year then 29 else 28)
  else if month == 4 || month == 6 || month == 9 || month == 11 then 30
  else 31

def leastYear : Int := -262143

def greatestYear : Int := 262142

def ofParts? (year : Int) (month day : Nat) : Option Date :=
  if leastYear ≤ year && year ≤ greatestYear && 1 ≤ month && month ≤ 12 && 1 ≤ day &&
      day ≤ daysInMonth year month then
    some ⟨year, month, day⟩
  else none

def compareDate (left right : Date) : Ordering :=
  (compare left.year right.year).then
    ((compare left.month right.month).then (compare left.day right.day))

/-- Days since 1970-01-01. Years are counted from March, so a leap day is the last of its year. -/
def dayNumber (date : Date) : Int :=
  let year := if date.month ≤ 2 then date.year - 1 else date.year
  let era := year / 400
  let yearOfEra := year - era * 400
  let dayOfYear : Int := (153 * ((date.month + 9) % 12) + 2) / 5 + date.day - 1
  era * 146097 + (yearOfEra * 365 + yearOfEra / 4 - yearOfEra / 100 + dayOfYear) - 719468

def ofDayNumber (number : Int) : Date :=
  let shifted := number + 719468
  let era := shifted / 146097
  let dayOfEra := shifted - era * 146097
  let yearOfEra := (dayOfEra - dayOfEra / 1460 + dayOfEra / 36524 - dayOfEra / 146096) / 365
  let dayOfYear := dayOfEra - (365 * yearOfEra + yearOfEra / 4 - yearOfEra / 100)
  let monthFromMarch := (5 * dayOfYear + 2) / 153
  let day := dayOfYear - (153 * monthFromMarch + 2) / 5 + 1
  let month := if monthFromMarch < 10 then monthFromMarch + 3 else monthFromMarch - 9
  ⟨yearOfEra + era * 400 + (if month ≤ 2 then 1 else 0), month.toNat, day.toNat⟩

def yearText (year : Int) : String :=
  if 0 ≤ year && year ≤ 9999 then Text.padded 4 year.natAbs
  else (if year < 0 then "-" else "+") ++ Text.padded 4 year.natAbs

def toText (date : Date) : String :=
  yearText date.year ++ "-" ++ Text.padded 2 date.month ++ "-" ++ Text.padded 2 date.day

def readYear (chars : List Char) : Option (Int × List Char) :=
  match chars with
  | '-' :: rest =>
      (Text.takeNumber 1 rest.length rest).map fun (year, rest) => (-(year : Int), rest)
  | '+' :: rest =>
      (Text.takeNumber 1 rest.length rest).map fun (year, rest) => ((year : Int), rest)
  | _ => (Text.takeNumber 1 4 chars).map fun (year, rest) => ((year : Int), rest)

def skip (expected : Char) : List Char → Option (List Char)
  | c :: rest => if c == expected then some rest else none
  | [] => none

/-- Blanks may stand around every part, and months and days need no padding. -/
def read? (text : String) : Option Date := do
  let (year, rest) ← readYear (Text.trimLeft text.toList)
  let rest ← skip '-' (Text.trimLeft rest)
  let (month, rest) ← Text.takeNumber 1 2 (Text.trimLeft rest)
  let rest ← skip '-' (Text.trimLeft rest)
  let (day, rest) ← Text.takeNumber 1 2 (Text.trimLeft rest)
  if (Text.trimLeft rest).isEmpty then ofParts? year month day else none

end Date

end QueryProjection
