import Mathlib.Tactic.Common
import QueryProjection.Url.Utf8

set_option autoImplicit false

namespace QueryProjection.Utf8

variable {code byte least most bits missing : Nat} {rest : List Nat}

theorem toNat_valid (c : Char) : c.toNat < 0xD800 ∨ 0xDFFF < c.toNat ∧ c.toNat < 0x110000 := c.valid

theorem decodeFrom_whole (ascii : byte < 0x80) :
    decodeFrom none (byte :: rest) = Char.ofNat byte :: decodeFrom none rest := by
  simp [decodeFrom, start, ascii]

theorem decodeFrom_start {pending : Pending} (starts : start byte = .inr pending) :
    decodeFrom none (byte :: rest) = decodeFrom (some pending) rest := by
  simp [decodeFrom, starts]

theorem decodeFrom_more (within : least ≤ byte ∧ byte ≤ most) (notLast : missing ≠ 0) :
    decodeFrom (some ⟨missing + 1, least, most, bits⟩) (byte :: rest) =
      decodeFrom (some ⟨missing, 0x80, 0xBF, bits * 0x40 + (byte - 0x80)⟩) rest := by
  simp [decodeFrom, within, notLast]

theorem decodeFrom_last (within : least ≤ byte ∧ byte ≤ most) :
    decodeFrom (some ⟨1, least, most, bits⟩) (byte :: rest) =
      Char.ofNat (bits * 0x40 + (byte - 0x80)) :: decodeFrom none rest := by
  simp [decodeFrom, within]

theorem continuation_within (code : Nat) : 0x80 ≤ continuation code ∧ continuation code ≤ 0xBF := by
  unfold continuation
  omega

theorem continuation_bits (code : Nat) : code / 0x40 * 0x40 + (continuation code - 0x80) = code := by
  unfold continuation
  omega

theorem start_two (atLeast : 0x80 ≤ code) (below : code < 0x800) :
    start (0xC0 + code / 0x40) = .inr ⟨1, 0x80, 0xBF, code / 0x40⟩ := by
  have notWhole : ¬ 0xC0 + code / 0x40 < 0x80 := by omega
  have notShort : ¬ 0xC0 + code / 0x40 < 0xC2 := by omega
  have isTwo : 0xC0 + code / 0x40 < 0xE0 := by omega
  simp [start, notWhole, notShort, isTwo]

theorem start_three (atLeast : 0x800 ≤ code) (below : code < 0x10000)
    (valid : code < 0xD800 ∨ 0xDFFF < code) :
    ∃ least most, start (0xE0 + code / 0x1000) = .inr ⟨2, least, most, code / 0x1000⟩ ∧
      least ≤ continuation (code / 0x40) ∧ continuation (code / 0x40) ≤ most := by
  unfold continuation
  by_cases first : code / 0x1000 = 0
  next =>
    refine ⟨0xA0, 0xBF, ?_, by omega, by omega⟩
    simp [start, first]
  next =>
    by_cases surrogates : code / 0x1000 = 0xD
    next =>
      refine ⟨0x80, 0x9F, ?_, by omega, by omega⟩
      simp [start, surrogates]
    next =>
      refine ⟨0x80, 0xBF, ?_, by omega, by omega⟩
      have notTwo : ¬ 0xE0 + code / 0x1000 < 0xE0 := by omega
      have isThree : 0xE0 + code / 0x1000 < 0xF0 := by omega
      have notWhole : ¬ 0xE0 + code / 0x1000 < 0x80 := by omega
      have notShort : ¬ 0xE0 + code / 0x1000 < 0xC2 := by omega
      have notSurrogates : ¬ 0xE0 + code / 0x1000 = 0xED := by omega
      simp [start, first, notTwo, isThree, notWhole, notShort, notSurrogates]

theorem start_four (atLeast : 0x10000 ≤ code) (below : code < 0x110000) :
    ∃ least most, start (0xF0 + code / 0x40000) = .inr ⟨3, least, most, code / 0x40000⟩ ∧
      least ≤ continuation (code / 0x1000) ∧ continuation (code / 0x1000) ≤ most := by
  unfold continuation
  by_cases first : code / 0x40000 = 0
  next =>
    refine ⟨0x90, 0xBF, ?_, by omega, by omega⟩
    simp [start, first]
  next =>
    by_cases last : code / 0x40000 = 4
    next =>
      refine ⟨0x80, 0x8F, ?_, by omega, by omega⟩
      simp [start, last]
    next =>
      refine ⟨0x80, 0xBF, ?_, by omega, by omega⟩
      have between : code / 0x40000 = 1 ∨ code / 0x40000 = 2 ∨ code / 0x40000 = 3 := by omega
      rcases between with same | same | same <;> simp [start, same]

theorem decodeFrom_encodeChar (c : Char) (rest : List Nat) :
    decodeFrom none (encodeChar c ++ rest) = c :: decodeFrom none rest := by
  have valid := toNat_valid c
  have isChar : Char.ofNat c.toNat = c := Char.ofNat_toNat c
  unfold encodeChar
  generalize c.toNat = code at valid isChar
  -- Each continuation brings the code of the bytes so far to the next multiple of its own.
  have third : code / 0x40 / 0x40 = code / 0x1000 := by omega
  have second : code / 0x1000 / 0x40 = code / 0x40000 := by omega
  have bits := continuation_bits code
  have bits' := continuation_bits (code / 0x40)
  have bits'' := continuation_bits (code / 0x1000)
  rw [third] at bits'
  rw [second] at bits''
  by_cases one : code < 0x80
  next =>
    simp only [one, if_true, List.singleton_append]
    rw [decodeFrom_whole one, isChar]
  next =>
    by_cases two : code < 0x800
    next =>
      simp only [one, two, if_true, if_false, List.cons_append, List.nil_append]
      rw [decodeFrom_start (start_two (by omega) two), decodeFrom_last (continuation_within code),
        bits, isChar]
    next =>
      by_cases three : code < 0x10000
      next =>
        obtain ⟨least, most, starts, within⟩ := start_three (by omega) three (by omega)
        simp only [one, two, three, if_true, if_false, List.cons_append, List.nil_append]
        rw [decodeFrom_start starts, decodeFrom_more within (by omega), bits',
          decodeFrom_last (continuation_within code), bits, isChar]
      next =>
        obtain ⟨least, most, starts, within⟩ := start_four (by omega : 0x10000 ≤ code) (by omega)
        simp only [one, two, three, if_false, List.cons_append, List.nil_append]
        rw [decodeFrom_start starts, decodeFrom_more within (by omega), bits'',
          decodeFrom_more (continuation_within (code / 0x40)) (by omega), bits',
          decodeFrom_last (continuation_within code), bits, isChar]

theorem decode_encode (chars : List Char) : decode (encode chars) = chars := by
  unfold decode encode
  induction chars with
  | nil => rfl
  | cons c rest ih => rw [List.flatMap_cons, decodeFrom_encodeChar, ih]

end QueryProjection.Utf8
