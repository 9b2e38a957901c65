import Mathlib.Data.List.Induction
import Mathlib.Data.List.TakeDrop
import Mathlib.Data.List.TakeWhile
import Mathlib.Tactic.IntervalCases
import QueryProjection.Text.Basic

set_option autoImplicit false

namespace QueryProjection.Text

variable {digits rest : List Char} {least most width number : Nat}

def AreDigits (digits : List Char) : Prop :=
  ∀ c ∈ digits, c.isDigit = true

def NoDigitFirst (rest : List Char) : Prop :=
  ∀ c ∈ rest.head?, c.isDigit = false

theorem noDigitFirst_nil : NoDigitFirst [] := by
  simp [NoDigitFirst]

theorem noDigitFirst_cons {c : Char} (notDigit : c.isDigit = false) : NoDigitFirst (c :: rest) := by
  simpa [NoDigitFirst] using notDigit

theorem AreDigits.append (first : AreDigits digits) (later : AreDigits rest) :
    AreDigits (digits ++ rest) :=
  List.forall_mem_append.2 ⟨first, later⟩

theorem NoDigitFirst.takeWhile (stops : NoDigitFirst rest) : rest.takeWhile Char.isDigit = [] := by
  cases rest with
  | nil => rfl
  | cons c rest =>
    have notDigit : c.isDigit = false := stops c rfl
    simp [notDigit]

theorem NoDigitFirst.dropWhile (stops : NoDigitFirst rest) : rest.dropWhile Char.isDigit = rest := by
  cases rest with
  | nil => rfl
  | cons c rest =>
    have notDigit : c.isDigit = false := stops c rfl
    simp [notDigit]

theorem NoDigitFirst.take (stops : NoDigitFirst rest) (count : Nat) : NoDigitFirst (rest.take count) := by
  cases rest with
  | nil => simpa using noDigitFirst_nil
  | cons c rest =>
    cases count with
    | zero => simpa using noDigitFirst_nil
    | succ count => exact stops

theorem takeNumber_append (areDigits : AreDigits digits) (atLeast : least ≤ digits.length)
    (atMost : digits.length ≤ most) (stops : digits.length = most ∨ NoDigitFirst rest) :
    takeNumber least most (digits ++ rest) = some (readDigits digits, rest) := by
  have taken : ((digits ++ rest).take most).takeWhile Char.isDigit = digits := by
    rw [List.take_append, List.take_of_length_le atMost, List.takeWhile_append_of_pos areDigits]
    rcases stops with full | stops
    · simp [full]
    · rw [(stops.take _).takeWhile, List.append_nil]
  simp only [takeNumber, taken, if_neg (Nat.not_lt.2 atLeast), List.drop_left]

theorem spanDigits_append (areDigits : AreDigits digits) (stops : NoDigitFirst rest) :
    spanDigits (digits ++ rest) = (digits, rest) := by
  rw [spanDigits, List.span_eq_takeWhile_dropWhile, List.takeWhile_append_of_pos areDigits,
    List.dropWhile_append_of_pos areDigits, stops.takeWhile, stops.dropWhile, List.append_nil]

theorem readDigits_eq (digits : List Char) : readDigits digits = Nat.ofDigitChars 10 digits 0 := by
  simp only [readDigits, Nat.ofDigitChars, digitValue, Nat.mul_comm]

theorem toNat_of_isDigit {c : Char} (isDigit : c.isDigit = true) : 48 ≤ c.toNat ∧ c.toNat ≤ 57 := by
  simpa [Char.isDigit, UInt32.le_iff_toNat_le] using isDigit

theorem digitValue_lt {c : Char} (isDigit : c.isDigit = true) : digitValue c < 10 := by
  have range := toNat_of_isDigit isDigit
  have zero_ : '0'.toNat = 48 := rfl
  unfold digitValue
  omega

theorem isBlank_of_isDigit {c : Char} (isDigit : c.isDigit = true) : isBlank c = false := by
  obtain ⟨atLeast, atMost⟩ := toNat_of_isDigit isDigit
  unfold isBlank
  generalize c.toNat = code at atLeast atMost
  interval_cases code <;> rfl

theorem readDigits_concat (digits : List Char) (c : Char) :
    readDigits (digits ++ [c]) = readDigits digits * 10 + digitValue c := by
  simp [readDigits]

theorem readDigits_lt (areDigits : AreDigits digits) : readDigits digits < 10 ^ digits.length := by
  induction digits using List.reverseRecOn with
  | nil => simp [readDigits]
  | append_singleton before c ih =>
    obtain ⟨areBefore, isDigit⟩ := List.forall_mem_append.1 areDigits
    have within := ih areBefore
    have last := digitValue_lt (isDigit c List.mem_cons_self)
    rw [readDigits_concat, List.length_append, List.length_singleton, pow_succ]
    omega

theorem le_ofDigitChars (start : Nat) (chars : List Char) :
    start ≤ Nat.ofDigitChars 10 chars start := by
  induction chars generalizing start with
  | nil => simp
  | cons c rest ih =>
    have later := ih (10 * start + (c.toNat - '0'.toNat))
    rw [Nat.ofDigitChars_cons]
    omega

theorem toList_padded (width number : Nat) :
    (padded width number).toList =
      List.replicate (width - (Nat.toDigits 10 number).length) '0' ++ Nat.toDigits 10 number := by
  have spelled : (toString number).toList = Nat.toDigits 10 number := Nat.toList_repr
  rw [padded, padLeft, String.toList_append, String.toList_ofList, spelled, ← String.length_toList,
    spelled]

theorem areDigits_padded (width number : Nat) : AreDigits (padded width number).toList := by
  rw [toList_padded]
  refine AreDigits.append (fun c isZero => ?_) fun c => Nat.isDigit_of_mem_toDigits (by decide) le_rfl
  rw [List.eq_of_mem_replicate isZero]
  rfl

theorem readDigits_padded (width number : Nat) : readDigits (padded width number).toList = number := by
  have zeros (count : Nat) : Nat.ofDigitChars 10 (List.replicate count '0') 0 = 0 := by
    induction count with
    | zero => rfl
    | succ count ih => rw [List.replicate_succ, Nat.ofDigitChars_cons]; exact ih
  rw [readDigits_eq, toList_padded, Nat.ofDigitChars_append, zeros]
  exact Nat.ofDigitChars_toDigits (by decide) le_rfl

theorem length_padded (width number : Nat) :
    (padded width number).toList.length = max width (Nat.toDigits 10 number).length := by
  rw [toList_padded, List.length_append, List.length_replicate]
  omega

theorem length_padded_of_lt (positive : 0 < width) (fits : number < 10 ^ width) :
    (padded width number).toList.length = width := by
  rw [length_padded, Nat.max_eq_left]
  exact (Nat.length_toDigits_le_iff (by decide) positive).2 fits

theorem takeNumber_padded (least : Nat) (positive : 0 < width) (fits : number < 10 ^ width)
    (atLeast : least ≤ width) (rest : List Char) :
    takeNumber least width ((padded width number).toList ++ rest) = some (number, rest) := by
  have length := length_padded_of_lt positive fits
  rw [takeNumber_append (areDigits_padded _ _) (atLeast.trans length.ge) length.le (.inl length),
    readDigits_padded]

theorem takeNumber_lt {chars : List Char} (taken : takeNumber least most chars = some (number, rest)) :
    number < 10 ^ most := by
  unfold takeNumber at taken
  dsimp only at taken
  split at taken
  next => simp at taken
  next =>
    cases taken
    have areDigits : AreDigits ((chars.take most).takeWhile Char.isDigit) :=
      fun c isTaken => List.mem_takeWhile_imp isTaken
    refine (readDigits_lt areDigits).trans_le (Nat.pow_le_pow_right (by decide) ?_)
    exact ((List.takeWhile_sublist _).length_le).trans (List.length_take_le _ _)

theorem trimLeft_cons {c : Char} (notBlank : isBlank c = false) (rest : List Char) :
    trimLeft (c :: rest) = c :: rest := by
  simp [trimLeft, notBlank]

theorem trimLeft_digits (areDigits : AreDigits digits) (some_ : digits ≠ []) (rest : List Char) :
    trimLeft (digits ++ rest) = digits ++ rest := by
  obtain ⟨c, later, rfl⟩ := List.exists_cons_of_ne_nil some_
  exact trimLeft_cons (isBlank_of_isDigit (areDigits c List.mem_cons_self)) _

theorem takeNumber_trimLeft_padded (least : Nat) (positive : 0 < width)
    (fits : number < 10 ^ width) (atLeast : least ≤ width) (rest : List Char) :
    takeNumber least width (trimLeft ((padded width number).toList ++ rest)) =
      some (number, rest) := by
  have some_ : (padded width number).toList ≠ [] := by
    rw [← List.length_pos_iff, length_padded_of_lt positive fits]
    exact positive
  rw [trimLeft_digits (areDigits_padded width number) some_,
    takeNumber_padded least positive fits atLeast]

end QueryProjection.Text
