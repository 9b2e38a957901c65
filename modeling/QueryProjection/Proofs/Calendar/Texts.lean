import QueryProjection.Calendar.TimeOfDay
import QueryProjection.Proofs.Calendar.Days
import QueryProjection.Proofs.Text.Digits

set_option autoImplicit false

namespace QueryProjection

open Text

theorem some_bind {α β : Type} (value : α) (next : α → Option β) : (some value >>= next) = next value :=
  rfl

namespace Date

variable {rest : List Char}

theorem skip_cons (expected : Char) (rest : List Char) : skip expected (expected :: rest) = some rest := by
  simp [skip]

theorem readYear_digits {digits : List Char} (areDigits : AreDigits digits) (some_ : digits ≠ [])
    (atMost : digits.length ≤ 4) (stops : NoDigitFirst rest) :
    readYear (digits ++ rest) = some ((readDigits digits : Int), rest) := by
  obtain ⟨c, later, rfl⟩ := List.exists_cons_of_ne_nil some_
  have isDigit := areDigits c List.mem_cons_self
  unfold readYear
  split
  next sign =>
    obtain rfl := (List.cons.inj sign).1
    simp at isDigit
  next sign =>
    obtain rfl := (List.cons.inj sign).1
    simp at isDigit
  next => rw [takeNumber_append areDigits (by simp) atMost (.inr stops), Option.map_some]

theorem takeNumber_year (magnitude : Nat) (stops : NoDigitFirst rest) :
    takeNumber 1 ((padded 4 magnitude).toList ++ rest).length ((padded 4 magnitude).toList ++ rest) =
      some (magnitude, rest) := by
  have length := length_padded 4 magnitude
  rw [takeNumber_append (areDigits_padded 4 magnitude) (by omega) (by simp) (.inr stops),
    readDigits_padded]

theorem readYear_yearText (year : Int) (stops : NoDigitFirst rest) :
    readYear (trimLeft ((yearText year).toList ++ rest)) = some (year, rest) := by
  have some_ : (padded 4 year.natAbs).toList ≠ [] := by
    rw [← List.length_pos_iff, length_padded]
    omega
  have areDigits := areDigits_padded 4 year.natAbs
  unfold yearText
  split
  next plain =>
    simp only [Bool.and_eq_true, decide_eq_true_eq] at plain
    have fits : year.natAbs < 10 ^ 4 := by omega
    have length := length_padded_of_lt (by decide) fits
    rw [trimLeft_digits areDigits some_, readYear_digits areDigits some_ length.le stops,
      readDigits_padded, Int.natAbs_of_nonneg plain.1]
  next outside =>
    simp only [Bool.and_eq_true, decide_eq_true_eq, not_and, not_le] at outside
    -- A year that is negative or has more than four digits is written with its sign.
    rw [String.toList_append, List.append_assoc]
    split
    next negative =>
      rw [show "-".toList = ['-'] from rfl, List.singleton_append, trimLeft_cons (by decide)]
      simp only [readYear, takeNumber_year _ stops, Option.map_some, Option.some.injEq, Prod.mk.injEq,
        and_true]
      omega
    next =>
      rw [show "+".toList = ['+'] from rfl, List.singleton_append, trimLeft_cons (by decide)]
      simp only [readYear, takeNumber_year _ stops, Option.map_some, Option.some.injEq, Prod.mk.injEq,
        and_true]
      omega

theorem toList_toText (date : Date) :
    date.toText.toList = (yearText date.year).toList ++
      '-' :: ((padded 2 date.month).toList ++ '-' :: (padded 2 date.day).toList) := by
  have hyphen : "-".toList = ['-'] := rfl
  simp only [toText, String.toList_append, hyphen, List.append_assoc, List.cons_append,
    List.nil_append]

theorem Valid.fits {date : Date} (valid : date.Valid) : date.month < 10 ^ 2 ∧ date.day < 10 ^ 2 := by
  obtain ⟨-, isMonth, -, inMonth⟩ := valid.bounds
  have atMost : daysInMonth date.year date.month ≤ 31 := by
    unfold daysInMonth
    split_ifs <;> decide
  omega

theorem valid_of_read? {text : String} {date : Date} (read : read? text = some date) : date.Valid := by
  unfold read? at read
  obtain ⟨⟨year, _⟩, -, read⟩ := Option.bind_eq_some_iff.1 read
  obtain ⟨_, -, read⟩ := Option.bind_eq_some_iff.1 read
  obtain ⟨⟨month, _⟩, -, read⟩ := Option.bind_eq_some_iff.1 read
  obtain ⟨_, -, read⟩ := Option.bind_eq_some_iff.1 read
  obtain ⟨⟨day, _⟩, -, read⟩ := Option.bind_eq_some_iff.1 read
  dsimp only at read
  split at read
  next => exact (valid_of_ofParts? read).1
  next => simp at read

theorem read?_toText {date : Date} (valid : date.Valid) : read? date.toText = some date := by
  obtain ⟨fitsMonth, fitsDay⟩ := valid.fits
  have month := takeNumber_trimLeft_padded 1 (by decide) fitsMonth (by decide)
    ('-' :: (padded 2 date.day).toList)
  have day := takeNumber_trimLeft_padded 1 (by decide) fitsDay (by decide) []
  rw [List.append_nil] at day
  have hyphen (rest : List Char) : trimLeft ('-' :: rest) = '-' :: rest :=
    trimLeft_cons (by decide) rest
  have blank : (trimLeft []).isEmpty = true := rfl
  unfold read?
  rw [toList_toText, readYear_yearText _ (noDigitFirst_cons rfl)]
  simp only [Option.bind_eq_bind, Option.bind_some, hyphen, skip_cons, month, day, blank, if_true]
  exact valid

end Date

namespace TimeOfDay

structure Valid (time : TimeOfDay) : Prop where
  second : time.second < secondsPerDay
  nanosecond : time.nanosecond < 2 * nanosPerSecond
  leap : nanosPerSecond ≤ time.nanosecond → time.second % 60 = 59

theorem valid_of_ofParts? {hour minute second nanosecond : Nat} {time : TimeOfDay}
    (made : ofParts? hour minute second nanosecond = some time) (fits : nanosecond < nanosPerSecond) :
    time.Valid := by
  unfold ofParts? at made
  split at made
  next => simp at made
  next within =>
    simp only [Bool.or_eq_true, decide_eq_true_eq, not_or, not_lt] at within
    have perSecond : nanosPerSecond = 1000000000 := rfl
    have perDay : secondsPerDay = 86400 := rfl
    dsimp only at made
    split at made
    all_goals
      cases made
      constructor <;> simp_all <;> omega

theorem ofParts?_parts {time : TimeOfDay} (valid : time.Valid) :
    ofParts? (time.second / 3600) (time.second / 60 % 60)
      (time.second % 60 + time.nanosecond / nanosPerSecond) (time.nanosecond % nanosPerSecond) =
      some time := by
  obtain ⟨inDay, inSecond, leap⟩ := valid
  obtain ⟨second, nanosecond⟩ := time
  simp only [nanosPerSecond, secondsPerDay] at inDay inSecond leap ⊢
  unfold ofParts?
  rw [if_neg (by simp; omega)]
  dsimp only
  split
  next last =>
    simp only [beq_iff_eq] at last
    simp only [nanosPerSecond, Option.some.injEq, TimeOfDay.mk.injEq]
    omega
  next earlier =>
    simp only [beq_iff_eq] at earlier
    simp only [Option.some.injEq, TimeOfDay.mk.injEq]
    omega

variable {rest : List Char}

theorem readFraction_places {width number : Nat} (positive : 0 < width) (atMost : width ≤ 9)
    (fits : number < 10 ^ width) (stops : NoDigitFirst rest) :
    readFraction ('.' :: ((padded width number).toList ++ rest)) =
      some (number * 10 ^ (9 - width), rest) := by
  have areDigits := areDigits_padded width number
  have length := length_padded_of_lt positive fits
  have some_ : (padded width number).toList.isEmpty = false := by
    rw [List.isEmpty_eq_false_iff, ← List.length_pos_iff, length]
    exact positive
  simp only [readFraction, spanDigits_append areDigits stops, some_, Bool.false_eq_true, if_false,
    List.take_of_length_le (length.le.trans atMost), readDigits_padded, length, Nat.pow_eq]

theorem readFraction_fractionText {nanosecond : Nat} (fits : nanosecond < nanosPerSecond)
    (stops : NoDigitFirst rest) (noPoint : rest.head? ≠ some '.') :
    readFraction ((fractionText nanosecond).toList ++ rest) = some (nanosecond, rest) := by
  have perSecond : nanosPerSecond = 1000000000 := rfl
  have point : ".".toList = ['.'] := rfl
  unfold fractionText
  split_ifs with none_ three six
  · simp only [beq_iff_eq] at none_
    subst none_
    show readFraction rest = _
    unfold readFraction
    split
    next => simp at noPoint
    next => rfl
  all_goals
    simp only [beq_iff_eq] at *
    rw [String.toList_append, point, List.cons_append, List.nil_append, List.cons_append,
      readFraction_places (by decide) (by decide) (by omega) stops]
    simp only [Option.some.injEq, Prod.mk.injEq, and_true]
    omega

theorem toList_toText (time : TimeOfDay) :
    time.toText.toList = (padded 2 (time.second / 3600)).toList ++
      ':' :: ((padded 2 (time.second / 60 % 60)).toList ++
        ':' :: ((padded 2 (time.second % 60 + time.nanosecond / nanosPerSecond)).toList ++
          (fractionText (time.nanosecond % nanosPerSecond)).toList)) := by
  have colon : ":".toList = [':'] := rfl
  simp only [toText, String.toList_append, colon, List.append_assoc, List.cons_append, List.nil_append]

theorem Valid.fits {time : TimeOfDay} (valid : time.Valid) :
    time.second / 3600 < 10 ^ 2 ∧ time.second / 60 % 60 < 10 ^ 2 ∧
      time.second % 60 + time.nanosecond / nanosPerSecond < 10 ^ 2 := by
  obtain ⟨inDay, inSecond, -⟩ := valid
  simp only [nanosPerSecond, secondsPerDay] at inDay inSecond ⊢
  omega

theorem readFraction_lt {chars : List Char} {nanosecond : Nat}
    (read : readFraction chars = some (nanosecond, rest)) : nanosecond < nanosPerSecond := by
  unfold readFraction at read
  split at read
  next later =>
    dsimp only at read
    split at read
    next => simp at read
    next =>
      cases read
      -- Digits beyond the ninth are dropped, and missing ones count as zeros.
      have areDigits : AreDigits ((spanDigits later).1.take 9) := by
        intro c isTaken
        have inSpan := List.mem_of_mem_take isTaken
        rw [spanDigits, List.span_eq_takeWhile_dropWhile] at inSpan
        exact List.mem_takeWhile_imp inSpan
      have atMost : ((spanDigits later).1.take 9).length ≤ 9 := List.length_take_le _ _
      calc readDigits ((spanDigits later).1.take 9) * 10 ^ (9 - ((spanDigits later).1.take 9).length)
          < 10 ^ ((spanDigits later).1.take 9).length *
              10 ^ (9 - ((spanDigits later).1.take 9).length) :=
            Nat.mul_lt_mul_of_pos_right (readDigits_lt areDigits) (Nat.pow_pos (by decide))
        _ = nanosPerSecond := by
          rw [← pow_add, Nat.add_sub_cancel' atMost]
          rfl
  next =>
    cases read
    decide

theorem valid_of_read? {text : String} {time : TimeOfDay} (read : read? text = some time) :
    time.Valid := by
  unfold read? at read
  obtain ⟨⟨hour, _⟩, -, read⟩ := Option.bind_eq_some_iff.1 read
  obtain ⟨_, -, read⟩ := Option.bind_eq_some_iff.1 read
  obtain ⟨⟨minute, _⟩, -, read⟩ := Option.bind_eq_some_iff.1 read
  dsimp only at read
  split at read
  next => exact valid_of_ofParts? read (by decide)
  next =>
    obtain ⟨_, -, read⟩ := Option.bind_eq_some_iff.1 read
    obtain ⟨⟨second, _⟩, -, read⟩ := Option.bind_eq_some_iff.1 read
    obtain ⟨⟨nanosecond, _⟩, isFraction, read⟩ := Option.bind_eq_some_iff.1 read
    dsimp only at read
    split at read
    next => exact valid_of_ofParts? read (readFraction_lt isFraction)
    next => simp at read

theorem read?_toText {time : TimeOfDay} (valid : time.Valid) : read? time.toText = some time := by
  obtain ⟨fitsHour, fitsMinute, fitsSecond⟩ := valid.fits
  have hour := takeNumber_trimLeft_padded 1 (by decide) fitsHour (by decide)
  have minute := takeNumber_trimLeft_padded 1 (by decide) fitsMinute (by decide)
  have second := takeNumber_trimLeft_padded 1 (by decide) fitsSecond (by decide)
  have within : time.nanosecond % nanosPerSecond < nanosPerSecond := Nat.mod_lt _ (by decide)
  have fraction := readFraction_fractionText within noDigitFirst_nil (by simp)
  rw [List.append_nil] at fraction
  have colon (rest : List Char) : trimLeft (':' :: rest) = ':' :: rest :=
    trimLeft_cons (by decide) rest
  have blank : (trimLeft []).isEmpty = true := rfl
  unfold read?
  rw [toList_toText]
  simp only [Option.bind_eq_bind, Option.bind_some, colon, Date.skip_cons, hour, minute, second, fraction,
    blank, if_true, List.isEmpty_cons, Bool.false_eq_true, if_false]
  exact ofParts?_parts valid

end TimeOfDay

end QueryProjection
