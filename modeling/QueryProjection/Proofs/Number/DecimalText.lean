import QueryProjection.Number.Decimal
import QueryProjection.Proofs.Text.Digits

set_option autoImplicit false

namespace QueryProjection.Decimal

open Text

structure Valid (decimal : Decimal) : Prop where
  coefficient : decimal.coefficient.natAbs < coefficientLimit
  scale : decimal.scale ≤ mostPlaces

theorem signed_valid {negative : Bool} {magnitude scale : Nat} (fits : magnitude < coefficientLimit)
    (atMost : scale ≤ mostPlaces) : (signed negative magnitude scale).Valid := by
  refine ⟨?_, atMost⟩
  cases negative <;> simpa [signed] using fits

theorem roundAt_valid {negative : Bool} {magnitude scale : Nat} {next : Char} {decimal : Decimal}
    (fits : magnitude < coefficientLimit) (atMost : scale ≤ mostPlaces)
    (rounded : roundAt negative magnitude scale next = some decimal) : decimal.Valid := by
  unfold roundAt at rounded
  split at rounded
  next =>
    split at rounded
    next =>
      split at rounded
      next fits' =>
        cases rounded
        exact signed_valid fits' atMost
      next =>
        split at rounded
        next => simp at rounded
        next =>
          cases rounded
          -- A coefficient that no longer fits gives up one place.
          have limit : coefficientLimit = 2 ^ 96 := rfl
          exact signed_valid (by omega) (by omega)
    next =>
      cases rounded
      exact signed_valid fits atMost
  next => simp at rounded

theorem readDigits_valid {negative hasDigit hasPoint : Bool} {magnitude scale : Nat}
    {chars : List Char} {decimal : Decimal} (fits : magnitude < coefficientLimit)
    (atMost : scale ≤ mostPlaces)
    (read : readDigits negative hasDigit hasPoint magnitude scale chars = some decimal) :
    decimal.Valid := by
  induction chars generalizing hasDigit hasPoint magnitude scale with
  | nil =>
    simp only [readDigits] at read
    split at read
    next =>
      cases read
      exact signed_valid fits atMost
    next => simp at read
  | cons c rest ih =>
    simp only [readDigits] at read
    split at read
    next => exact roundAt_valid fits atMost read
    next =>
      split at read
      next =>
        split at read
        -- A digit is taken while the number fits with it. After the point the first one that
        -- is not rounds the number.
        next longer =>
          refine ih longer ?_ read
          split <;> omega
        next =>
          split at read
          next => exact roundAt_valid fits atMost read
          next => simp at read
      next =>
        split at read
        next => exact ih fits atMost read
        next =>
          split at read
          next => exact ih fits atMost read
          next => simp at read

theorem readPlain?_valid {text : String} {decimal : Decimal} (read : readPlain? text = some decimal) :
    decimal.Valid := by
  have positive : 0 < coefficientLimit := by decide
  unfold readPlain? at read
  split at read <;> exact readDigits_valid positive (by decide) read

theorem raise_valid {decimal raised : Decimal} {exponent : Nat} (valid : decimal.Valid)
    (made : decimal.raise exponent = some raised) : raised.Valid := by
  unfold raise at made
  split at made
  next => simp at made
  next =>
    split at made
    next =>
      cases made
      exact ⟨valid.coefficient, (Nat.sub_le _ _).trans valid.scale⟩
    next =>
      dsimp only at made
      split at made
      next fits =>
        cases made
        exact ⟨fits, Nat.zero_le _⟩
      next => simp at made

theorem lower_valid {decimal lowered : Decimal} {exponent : Nat} (valid : decimal.Valid)
    (made : decimal.lower exponent = some lowered) : lowered.Valid := by
  unfold lower at made
  split at made
  next within =>
    cases made
    exact ⟨valid.coefficient, within⟩
  next => simp at made

theorem valid_of_read? {text : String} {decimal : Decimal} (read : read? text = some decimal) :
    decimal.Valid := by
  unfold read? at read
  split at read
  next =>
    unfold readScientific? at read
    dsimp only at read
    split at read
    next isBase _ =>
      obtain ⟨exponent, -, lowered⟩ := Option.bind_eq_some_iff.1 read
      exact lower_valid (readPlain?_valid isBase) lowered
    next isBase _ =>
      obtain ⟨exponent, -, lowered⟩ := Option.bind_eq_some_iff.1 read
      exact lower_valid (readPlain?_valid isBase) lowered
    next isBase _ =>
      obtain ⟨exponent, -, raised⟩ := Option.bind_eq_some_iff.1 read
      exact raise_valid (readPlain?_valid isBase) raised
    next isBase _ =>
      obtain ⟨exponent, -, raised⟩ := Option.bind_eq_some_iff.1 read
      exact raise_valid (readPlain?_valid isBase) raised
    next => simp at read
  next => exact readPlain?_valid read

variable {negative hasDigit : Bool} {magnitude scale : Nat} {digits rest : List Char}

theorem next_eq (magnitude : Nat) (c : Char) :
    magnitude * 10 + digitValue c = 10 * magnitude + (c.toNat - '0'.toNat) := by
  rw [Nat.mul_comm]
  rfl

theorem isMark_of_isDigit {c : Char} (isDigit : c.isDigit = true) : isExponentMark c = false := by
  obtain ⟨atLeast, atMost⟩ := toNat_of_isDigit isDigit
  have notLower : c ≠ 'e' := by
    rintro rfl
    contradiction
  have notUpper : c ≠ 'E' := by
    rintro rfl
    contradiction
  simp [isExponentMark, notLower, notUpper]

theorem readDigits_whole (areDigits : AreDigits digits)
    (fits : Nat.ofDigitChars 10 digits magnitude < coefficientLimit) :
    readDigits negative hasDigit false magnitude 0 (digits ++ rest) =
      readDigits negative (hasDigit || !digits.isEmpty) false (Nat.ofDigitChars 10 digits magnitude) 0
        rest := by
  induction digits generalizing hasDigit magnitude with
  | nil => simp
  | cons c later ih =>
    obtain ⟨isDigit, areDigits⟩ := List.forall_mem_cons.1 areDigits
    rw [Nat.ofDigitChars_cons] at fits ⊢
    have longer := (le_ofDigitChars _ later).trans_lt fits
    rw [List.cons_append, readDigits, if_neg (by decide), if_pos isDigit]
    simp only [next_eq, if_pos longer, Bool.false_eq_true, if_false]
    rw [ih areDigits fits]
    simp

theorem readDigits_places (areDigits : AreDigits digits)
    (fits : Nat.ofDigitChars 10 digits magnitude < coefficientLimit)
    (atMost : scale + digits.length ≤ mostPlaces) :
    readDigits negative true true magnitude scale digits =
      some (signed negative (Nat.ofDigitChars 10 digits magnitude) (scale + digits.length)) := by
  induction digits generalizing magnitude scale with
  | nil => simp [readDigits]
  | cons c later ih =>
    obtain ⟨isDigit, areDigits⟩ := List.forall_mem_cons.1 areDigits
    rw [Nat.ofDigitChars_cons] at fits ⊢
    have longer := (le_ofDigitChars _ later).trans_lt fits
    rw [List.length_cons] at atMost ⊢
    rw [readDigits, if_neg (by omega), if_pos isDigit]
    simp only [next_eq, if_pos longer, if_true]
    rw [ih areDigits fits (by omega), Nat.add_assoc, Nat.add_comm 1]

theorem exists_digits (decimal : Decimal) : ∃ whole places : List Char,
    AreDigits whole ∧ AreDigits places ∧ whole ≠ [] ∧ places.length = decimal.scale ∧
      Nat.ofDigitChars 10 (whole ++ places) 0 = decimal.coefficient.natAbs ∧
      decimal.toText.toList = (if decimal.coefficient < 0 then ['-'] else []) ++ whole ++
        if places.isEmpty then [] else '.' :: places := by
  obtain ⟨text, isText⟩ : ∃ text, text = padded (decimal.scale + 1) decimal.coefficient.natAbs :=
    ⟨_, rfl⟩
  have areDigits := areDigits_padded (decimal.scale + 1) decimal.coefficient.natAbs
  have number := readDigits_padded (decimal.scale + 1) decimal.coefficient.natAbs
  have length := length_padded (decimal.scale + 1) decimal.coefficient.natAbs
  rw [← isText] at areDigits number length
  rw [readDigits_eq] at number
  -- One digit more is written than there are places, so that there is a whole part.
  refine ⟨text.toList.take (text.length - decimal.scale), text.toList.drop (text.length - decimal.scale),
    fun c isTaken => areDigits c (List.mem_of_mem_take isTaken),
    fun c isDropped => areDigits c (List.mem_of_mem_drop isDropped), ?_, ?_, ?_, ?_⟩
  · rw [← List.length_pos_iff, List.length_take, ← String.length_toList]
    omega
  · rw [List.length_drop, ← String.length_toList]
    omega
  · rw [List.take_append_drop]
    exact number
  · have sign : (if decimal.coefficient < 0 then "-" else "").toList =
        if decimal.coefficient < 0 then ['-'] else [] := by
      split <;> rfl
    have point : ".".toList = ['.'] := rfl
    simp only [toText, ← isText, String.toList_append, String.toList_ofList, sign]
    congr 1
    split
    next => rfl
    next => simp only [String.toList_append, point, String.toList_ofList, List.singleton_append]

theorem read?_toText {decimal : Decimal} (valid : decimal.Valid) :
    read? decimal.toText = some decimal := by
  obtain ⟨whole, places, areWhole, arePlaces, someWhole, count, number, isText⟩ := decimal.exists_digits
  rw [Nat.ofDigitChars_append] at number
  have fits : Nat.ofDigitChars 10 whole 0 < coefficientLimit :=
    (le_ofDigitChars _ places).trans_lt (number ▸ valid.coefficient)
  have hasDigit : (!whole.isEmpty) = true := by simpa using someWhole
  have unsigned (negative : Bool) :
      readDigits negative false false 0 0 (whole ++ if places.isEmpty then [] else '.' :: places) =
        some (signed negative decimal.coefficient.natAbs decimal.scale) := by
    rw [readDigits_whole areWhole fits, Bool.false_or, hasDigit]
    split
    next none_ =>
      rw [List.isEmpty_iff] at none_
      subst none_
      simp [readDigits, ← number, ← count]
    next =>
      rw [readDigits, if_neg (by decide), if_neg (by decide), if_pos (by decide),
        readDigits_places arePlaces (number ▸ valid.coefficient) (by simpa [count] using valid.scale),
        number, count, Nat.zero_add]
  -- A text without the mark of an exponent is read in plain notation.
  have noMark : decimal.toText.toList.any isExponentMark = false := by
    have ofDigits {digits : List Char} (areDigits : AreDigits digits) :
        ∀ c ∈ digits, isExponentMark c = false := fun c isDigit => isMark_of_isDigit (areDigits c isDigit)
    have sign : isExponentMark '-' = false := by decide
    have point : isExponentMark '.' = false := by decide
    rw [List.any_eq_false, isText]
    intro c isChar
    rw [Bool.not_eq_true]
    rcases List.mem_append.1 isChar with front | isPlace
    · rcases List.mem_append.1 front with isSign | isWhole
      · split at isSign <;> simp_all
      · exact ofDigits areWhole c isWhole
    · split at isPlace
      next => simp at isPlace
      next =>
        rcases List.mem_cons.1 isPlace with rfl | isPlace
        · exact point
        · exact ofDigits arePlaces c isPlace
  have isSigned : signed (decide (decimal.coefficient < 0)) decimal.coefficient.natAbs decimal.scale =
      decimal := by
    obtain ⟨coefficient, scale⟩ := decimal
    simp only [signed, decide_eq_true_eq, Decimal.mk.injEq, and_true]
    split <;> omega
  have read := unsigned (decide (decimal.coefficient < 0))
  rw [isSigned] at read
  rw [read?, noMark, if_neg Bool.false_ne_true]
  unfold readPlain?
  rw [isText]
  by_cases negative : decimal.coefficient < 0
  · rw [decide_eq_true negative] at read
    rw [if_pos negative, List.append_assoc, List.singleton_append]
    exact read
  · rw [decide_eq_false negative] at read
    rw [if_neg negative, List.nil_append]
    -- The reader would take a sign off, but the text starts with a digit.
    obtain ⟨c, later, rfl⟩ := List.exists_cons_of_ne_nil someWhole
    have isDigit := areWhole c List.mem_cons_self
    rw [List.cons_append] at read ⊢
    split
    next sign =>
      obtain rfl := (List.cons.inj sign).1
      contradiction
    next sign =>
      obtain rfl := (List.cons.inj sign).1
      contradiction
    next => exact read

end QueryProjection.Decimal
