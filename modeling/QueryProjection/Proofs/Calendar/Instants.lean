import QueryProjection.Calendar.Timestamp
import QueryProjection.Proofs.Calendar.Texts

set_option autoImplicit false

namespace QueryProjection

open Text

namespace Offset

theorem toList_toText (offset : Int) :
    (toText offset).toList = (if offset < 0 then '-' else '+') ::
      ((padded 2 ((offset.natAbs + 30) / 60 / 60)).toList ++
        ':' :: (padded 2 ((offset.natAbs + 30) / 60 % 60)).toList) := by
  have sign : (if offset < 0 then "-" else "+").toList = [if offset < 0 then '-' else '+'] := by
    split <;> rfl
  have colon : ":".toList = [':'] := rfl
  simp only [toText, String.toList_append, sign, colon, List.append_assoc, List.cons_append,
    List.nil_append]

theorem minutes_of_readHoursMinutes {between : List Char → Option (List Char)} {chars rest : List Char}
    {offset : Int} (read : readHoursMinutes between chars = some (offset, rest)) : offset % 60 = 0 := by
  unfold readHoursMinutes at read
  split at read
  next => simp at read
  next =>
    split at read
    next => simp at read
    next =>
      obtain ⟨⟨hours, _⟩, -, read⟩ := Option.bind_eq_some_iff.1 read
      obtain ⟨_, -, read⟩ := Option.bind_eq_some_iff.1 read
      obtain ⟨⟨minutes, _⟩, -, read⟩ := Option.bind_eq_some_iff.1 read
      dsimp only at read
      split at read
      next => simp at read
      next =>
        simp only [Option.some.injEq, Prod.mk.injEq] at read
        obtain ⟨rfl, -⟩ := read
        split <;> omega

theorem readHoursMinutes_toText {offset : Int} (minutes : offset % 60 = 0)
    (short : offset.natAbs < TimeOfDay.secondsPerDay) :
    readHoursMinutes (Date.skip ':') (toText offset).toList = some (offset, []) := by
  simp only [TimeOfDay.secondsPerDay] at short
  rw [toList_toText]
  -- The number of minutes is named, so that omega divides one term only.
  obtain ⟨count, isCount⟩ : ∃ count : Nat, count = (offset.natAbs + 30) / 60 := ⟨_, rfl⟩
  rw [← isCount]
  have fitsHours : count / 60 < 10 ^ 2 := by omega
  have fitsMinutes : count % 60 < 10 ^ 2 := by omega
  have hours := takeNumber_padded 2 (by decide) fitsHours le_rfl
  have rest := takeNumber_padded 2 (by decide) fitsMinutes le_rfl []
  rw [List.append_nil] at rest
  split
  next negative =>
    simp only [readHoursMinutes, isMinus, hours, rest, Date.skip_cons, Option.bind_eq_bind,
      Option.bind_some, beq_self_eq_true, Bool.true_or, Bool.not_true, Bool.and_false,
      Bool.false_eq_true, if_false, if_true]
    rw [if_neg (by omega)]
    simp only [Option.some.injEq, Prod.mk.injEq, and_true]
    omega
  next =>
    have plus : isMinus '+' = false := by decide
    simp only [readHoursMinutes, plus, hours, rest, Date.skip_cons, Option.bind_eq_bind,
      Option.bind_some, bne_self_eq_false, Bool.false_and, Bool.false_eq_true, if_false]
    rw [if_neg (by omega)]
    simp only [Option.some.injEq, Prod.mk.injEq, and_true]
    omega

end Offset

namespace Timestamp

inductive Valid : Timestamp → Prop where
  | ofLocal {date : Date} {time : TimeOfDay} {offset : Int} (isDate : date.Valid)
      (year : 0 ≤ date.year ∧ date.year ≤ 9999) (isTime : time.Valid) (minutes : offset % 60 = 0)
      (short : offset.natAbs < TimeOfDay.secondsPerDay) : Valid (.ofLocal date time offset)

theorem localDate_ofLocal {date : Date} {time : TimeOfDay} {offset : Int} (isDate : date.Valid)
    (isTime : time.Valid) : (ofLocal date time offset).localDate = date := by
  have inDay := isTime.second
  have number : (date.dayNumber * TimeOfDay.secondsPerDay + time.second - offset + offset) /
      (TimeOfDay.secondsPerDay : Int) = date.dayNumber := by
    simp only [TimeOfDay.secondsPerDay] at inDay ⊢
    omega
  rw [localDate, ofLocal, number, Date.ofDayNumber_dayNumber isDate]

theorem localTime_ofLocal {date : Date} {time : TimeOfDay} {offset : Int} (isTime : time.Valid) :
    (ofLocal date time offset).localTime = time := by
  have inDay := isTime.second
  have second : ((date.dayNumber * TimeOfDay.secondsPerDay + time.second - offset + offset) %
      (TimeOfDay.secondsPerDay : Int)).toNat = time.second := by
    simp only [TimeOfDay.secondsPerDay] at inDay ⊢
    omega
  rw [localTime, ofLocal, second]

def zoneText (offset : Int) : String :=
  if offset == 0 then "Z" else Offset.toText offset

theorem toZuluText_eq (timestamp : Timestamp) :
    timestamp.toZuluText = timestamp.localText ++ zoneText timestamp.offset := by
  unfold toZuluText zoneText
  split <;> rfl

theorem readOffset_zoneText {offset : Int} (minutes : offset % 60 = 0)
    (short : offset.natAbs < TimeOfDay.secondsPerDay) :
    readOffset (zoneText offset).toList = some (offset, []) := by
  have read := Offset.readHoursMinutes_toText minutes short
  unfold zoneText
  split
  next zero_ =>
    rw [beq_iff_eq] at zero_
    subst zero_
    rfl
  next =>
    have notZulu : ((if offset < 0 then '-' else '+').toUpper == 'Z') = false := by
      split <;> decide
    rw [Offset.toList_toText] at read ⊢
    simp only [readOffset, notZulu, read, Bool.false_eq_true, if_false, Option.bind_eq_bind,
      Option.bind_some, short, if_true]

theorem zoneText_head (offset : Int) :
    NoDigitFirst (zoneText offset).toList ∧ (zoneText offset).toList.head? ≠ some '.' := by
  unfold zoneText
  split
  next => exact ⟨noDigitFirst_cons rfl, by decide⟩
  next =>
    rw [Offset.toList_toText]
    split
    next => exact ⟨noDigitFirst_cons rfl, by simp⟩
    next => exact ⟨noDigitFirst_cons rfl, by simp⟩

theorem readOffset_range {chars rest : List Char} {offset : Int}
    (read : readOffset chars = some (offset, rest)) :
    offset % 60 = 0 ∧ offset.natAbs < TimeOfDay.secondsPerDay := by
  unfold readOffset at read
  split at read
  next => simp at read
  next =>
    split at read
    next =>
      cases read
      decide
    next =>
      obtain ⟨⟨seconds, _⟩, isOffset, read⟩ := Option.bind_eq_some_iff.1 read
      dsimp only at read
      split at read
      next short =>
        cases read
        exact ⟨Offset.minutes_of_readHoursMinutes isOffset, short⟩
      next => simp at read

theorem valid_of_read? {text : String} {timestamp : Timestamp} (read : read? text = some timestamp) :
    timestamp.Valid := by
  unfold read? at read
  obtain ⟨⟨year, _⟩, isYear, read⟩ := Option.bind_eq_some_iff.1 read
  obtain ⟨_, -, read⟩ := Option.bind_eq_some_iff.1 read
  obtain ⟨⟨month, _⟩, -, read⟩ := Option.bind_eq_some_iff.1 read
  obtain ⟨_, -, read⟩ := Option.bind_eq_some_iff.1 read
  obtain ⟨⟨day, _⟩, -, read⟩ := Option.bind_eq_some_iff.1 read
  obtain ⟨_, -, read⟩ := Option.bind_eq_some_iff.1 read
  obtain ⟨⟨hour, _⟩, -, read⟩ := Option.bind_eq_some_iff.1 read
  obtain ⟨_, -, read⟩ := Option.bind_eq_some_iff.1 read
  obtain ⟨⟨minute, _⟩, -, read⟩ := Option.bind_eq_some_iff.1 read
  obtain ⟨_, -, read⟩ := Option.bind_eq_some_iff.1 read
  obtain ⟨⟨second, _⟩, -, read⟩ := Option.bind_eq_some_iff.1 read
  obtain ⟨⟨nanosecond, _⟩, isFraction, read⟩ := Option.bind_eq_some_iff.1 read
  obtain ⟨⟨offset, _⟩, isOffset, read⟩ := Option.bind_eq_some_iff.1 read
  obtain ⟨date, isDate, read⟩ := Option.bind_eq_some_iff.1 read
  obtain ⟨time, isTime, read⟩ := Option.bind_eq_some_iff.1 read
  split at read
  next =>
    cases read
    obtain ⟨validDate, same⟩ := Date.valid_of_ofParts? isDate
    -- The reader takes four digits for the year, and the constructors check the other parts.
    have fits : year < 10 ^ 4 := takeNumber_lt isYear
    have validTime := TimeOfDay.valid_of_ofParts? isTime (TimeOfDay.readFraction_lt isFraction)
    obtain ⟨minutes, short⟩ := readOffset_range isOffset
    refine .ofLocal validDate ?_ validTime minutes short
    rw [same]
    exact ⟨by simp, by dsimp only; omega⟩
  next => simp at read

theorem read?_toZuluText {timestamp : Timestamp} (valid : timestamp.Valid) :
    read? timestamp.toZuluText = some timestamp := by
  obtain @⟨date, time, offset, isDate, isYear, isTime, minutes, short⟩ := valid
  obtain ⟨fitsMonth, fitsDay⟩ := isDate.fits
  obtain ⟨fitsHour, fitsMinute, fitsSecond⟩ := isTime.fits
  have yearText : Date.yearText date.year = padded 4 date.year.natAbs := by
    simp [Date.yearText, isYear]
  have isText : (ofLocal date time offset).toZuluText.toList =
      date.toText.toList ++ 'T' :: (time.toText.toList ++ (zoneText offset).toList) := by
    have mark : "T".toList = ['T'] := rfl
    have isOffset : (ofLocal date time offset).offset = offset := rfl
    simp only [toZuluText_eq, localText, localDate_ofLocal isDate isTime, localTime_ofLocal isTime,
      isOffset, String.toList_append, mark, List.append_assoc, List.cons_append, List.nil_append]
  have fitsYear : date.year.natAbs < 10 ^ 4 := by omega
  -- Every number has a fixed width, so that the reader stops where the next part begins.
  have year := takeNumber_padded 4 (by decide) fitsYear le_rfl
  have month := takeNumber_padded 2 (by decide) fitsMonth le_rfl
  have day := takeNumber_padded 2 (by decide) fitsDay le_rfl
  have hour := takeNumber_padded 2 (by decide) fitsHour le_rfl
  have minute := takeNumber_padded 2 (by decide) fitsMinute le_rfl
  have second := takeNumber_padded 2 (by decide) fitsSecond le_rfl
  obtain ⟨stops, noPoint⟩ := zoneText_head offset
  have fraction := TimeOfDay.readFraction_fractionText (Nat.mod_lt time.nanosecond
    (by decide : 0 < TimeOfDay.nanosPerSecond)) stops noPoint
  have mark (rest : List Char) : skipDateMark ('T' :: rest) = some rest := by
    simp [skipDateMark]
  have sameYear : (date.year.natAbs : Int) = date.year := Int.natAbs_of_nonneg isYear.1
  have isDate : Date.ofParts? date.year date.month date.day = some date := isDate
  rw [Date.toList_toText, TimeOfDay.toList_toText, yearText] at isText
  simp only [List.append_assoc, List.cons_append] at isText
  -- From here on the reader goes through the text part by part.
  unfold read?
  rw [isText, year, some_bind]
  dsimp only
  rw [Date.skip_cons, some_bind, month, some_bind]
  dsimp only
  rw [Date.skip_cons, some_bind, day, some_bind]
  dsimp only
  rw [mark, some_bind, hour, some_bind]
  dsimp only
  rw [Date.skip_cons, some_bind, minute, some_bind]
  dsimp only
  rw [Date.skip_cons, some_bind, second, some_bind]
  dsimp only
  rw [fraction, some_bind]
  dsimp only
  rw [readOffset_zoneText minutes short, some_bind]
  dsimp only
  rw [sameYear, isDate, some_bind, TimeOfDay.ofParts?_parts isTime, some_bind]
  rfl

end Timestamp

end QueryProjection
