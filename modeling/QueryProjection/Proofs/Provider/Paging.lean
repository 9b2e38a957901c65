import Mathlib.Algebra.Group.Nat.Defs
import QueryProjection.Proofs.Text.Digits
import QueryProjection.Provider.Memory

set_option autoImplicit false

namespace QueryProjection

namespace Continuation

theorem readDigits_of_lt {value : Nat} {chars : List Char} (digits : ∀ c ∈ chars, c.isDigit = true)
    (fits : Nat.ofDigitChars 10 chars value < 2 ^ 64) :
    readDigits value chars = .ok (Nat.ofDigitChars 10 chars value) := by
  induction chars generalizing value with
  | nil => simp [readDigits]
  | cons c rest ih =>
    obtain ⟨isDigit, digits⟩ := List.forall_mem_cons.1 digits
    rw [Nat.ofDigitChars_cons] at fits ⊢
    have next : value * 10 + Text.digitValue c = 10 * value + (c.toNat - '0'.toNat) := by
      rw [Nat.mul_comm]
      rfl
    have within := Text.le_ofDigitChars (10 * value + (c.toNat - '0'.toNat)) rest
    simp only [readDigits, isDigit, if_true, next]
    have inWord : 10 * value + (c.toNat - '0'.toNat) < Nat.pow 2 64 := Nat.lt_of_le_of_lt within fits
    rw [if_pos inWord]
    exact ih digits fits

theorem read_toString {offset : Nat} (fits : offset < 2 ^ 64) :
    read (toString offset).toList = .ok offset := by
  have text : (toString offset).toList = Nat.toDigits 10 offset := Nat.toList_repr
  have digits : ∀ c ∈ Nat.toDigits 10 offset, c.isDigit = true :=
    fun _ => Nat.isDigit_of_mem_toDigits (by decide) (by decide)
  have value : Nat.ofDigitChars 10 (Nat.toDigits 10 offset) 0 = offset :=
    Nat.ofDigitChars_toDigits (by decide) (by decide)
  have numeral := readDigits_of_lt digits (value.symm ▸ fits)
  rw [value] at numeral
  rw [text]
  -- No sign stands before the digits, and there is at least one.
  cases spelled : Nat.toDigits 10 offset with
  | nil => simp at spelled
  | cons c rest =>
    rw [spelled] at numeral digits
    have unsigned : c ≠ '+' := by
      rintro rfl
      exact absurd (digits '+' List.mem_cons_self) (by decide)
    unfold read
    split
    next empty => contradiction
    next sign => exact absurd (List.cons.inj sign).1 unsigned
    next sign => exact absurd (List.cons.inj sign).1 unsigned
    next => exact numeral

end Continuation

namespace MemoryRows

variable {size : Option Nat} {rows : List Value} {offset : Nat}

theorem page_last (last : (page size rows offset).continuation = none) :
    (page size rows offset).items = rows.drop offset := by
  cases size with
  | none => simp [page]
  | some number =>
    by_cases more : min (offset + number) rows.length < rows.length
    · simp [page, more] at last
    · simp only [page]
      rw [List.take_of_length_le (Nat.not_lt.1 more)]

theorem page_continued (positive : ∀ number ∈ size, 0 < number) {next : String}
    (continued : (page size rows offset).continuation = some next) :
    ∃ stop, next = toString stop ∧ offset < stop ∧ stop < rows.length ∧
      rows.drop offset = (page size rows offset).items ++ rows.drop stop := by
  cases size with
  | none => simp [page] at continued
  | some number =>
    have someRow : 0 < number := positive number rfl
    by_cases more : min (offset + number) rows.length < rows.length
    · have ahead : offset < min (offset + number) rows.length := by omega
      simp only [page, more, if_true, Option.some.injEq] at continued ⊢
      refine ⟨_, continued.symm, ahead, more, ?_⟩
      rw [← List.drop_append_of_le_length (by rw [List.length_take]; omega), List.take_append_drop]
    · simp [page, more] at continued

end MemoryRows

end QueryProjection
