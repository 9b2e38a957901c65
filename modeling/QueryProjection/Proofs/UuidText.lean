import Mathlib.Algebra.Ring.Nat
import Mathlib.Data.List.Induction
import Mathlib.Tactic.Common
import QueryProjection.Uuid

set_option autoImplicit false

namespace QueryProjection.Uuid

theorem hexValue_hexDigit : ∀ value < 16, hexValue (hexDigit value) = some value := by
  decide

theorem hexValue_lt {c : Char} {value : Nat} (isValue : hexValue c = some value) : value < 16 := by
  unfold hexValue at isValue
  split at isValue
  next isDigit =>
    have range : 48 ≤ c.toNat ∧ c.toNat ≤ 57 := by
      simpa [Char.isDigit, UInt32.le_iff_toNat_le] using isDigit
    cases isValue
    have zero_ : '0'.toNat = 48 := rfl
    omega
  next =>
    dsimp only at isValue
    split at isValue
    next isLetter =>
      have range : 97 ≤ c.toLower.toNat ∧ c.toLower.toNat ≤ 102 := by
        simpa [Char.le_def, UInt32.le_iff_toNat_le] using isLetter
      cases isValue
      have first : 'a'.toNat = 97 := rfl
      omega
    next => simp at isValue

theorem readHex_concat (digits : List Char) (c : Char) :
    readHex (digits ++ [c]) = (readHex digits).bind fun total =>
      (hexValue c).map fun value => total * 16 + value := by
  rw [readHex, List.foldl_append, ← readHex, List.foldl_cons, List.foldl_nil]
  cases readHex digits with
  | none => rfl
  | some total => cases hexValue c <;> rfl

theorem readHex_lt {digits : List Char} {bits : Nat} (read : readHex digits = some bits) :
    bits < 16 ^ digits.length := by
  induction digits using List.reverseRecOn generalizing bits with
  | nil =>
    cases read
    decide
  | append_singleton before c ih =>
    rw [readHex_concat] at read
    obtain ⟨total, isTotal, read⟩ := Option.bind_eq_some_iff.1 read
    obtain ⟨value, isValue, rfl⟩ := Option.map_eq_some_iff.1 read
    have within := ih isTotal
    have small := hexValue_lt isValue
    rw [List.length_append, List.length_singleton, Nat.pow_succ]
    omega

theorem length_hexDigits (count bits : Nat) : (hexDigits count bits).length = count := by
  induction count generalizing bits with
  | zero => rfl
  | succ count ih => rw [hexDigits, List.length_append, ih, List.length_singleton]

theorem readHex_hexDigits (count bits : Nat) :
    readHex (hexDigits count bits) = some (bits % 16 ^ count) := by
  induction count generalizing bits with
  | zero => simp [hexDigits, readHex, Nat.mod_one]
  | succ count ih =>
    have last : hexValue (hexDigit (bits % 16)) = some (bits % 16) :=
      hexValue_hexDigit _ (Nat.mod_lt _ (by decide))
    rw [hexDigits, readHex_concat, ih, last, Nat.pow_succ, Nat.mul_comm, Nat.mod_mul]
    simp only [Option.bind_some, Option.map_some, Option.some.injEq]
    omega

theorem length_withoutHyphens {sizes : List Nat} {chars digits : List Char}
    (read : withoutHyphens sizes chars = some digits) :
    digits.length = sizes.sum := by
  match sizes, chars, read with
  | [], [], read =>
    cases read
    rfl
  | [], _ :: _, read => cases read
  | [last], chars, read =>
    simp only [withoutHyphens, beq_iff_eq] at read
    split at read
    next full =>
      cases read
      simpa using full
    next => simp at read
  | size :: next :: sizes, chars, read =>
    simp only [withoutHyphens] at read
    split at read
    next rest found =>
      obtain ⟨later, isLater, rfl⟩ := Option.map_eq_some_iff.1 read
      have enough : size ≤ chars.length := by
        have some_ := congrArg List.length found
        rw [List.length_drop, List.length_cons] at some_
        omega
      rw [List.length_append, List.length_take, length_withoutHyphens isLater, List.sum_cons,
        List.sum_cons, List.sum_cons, Nat.min_eq_left enough]
    next => simp at read

theorem withoutHyphens_withHyphens {sizes : List Nat} {digits : List Char} (some_ : sizes ≠ [])
    (length : digits.length = sizes.sum) :
    withoutHyphens sizes (['-'].intercalate (withHyphens sizes digits)) = some digits ∧
      (['-'].intercalate (withHyphens sizes digits)).length + 1 = digits.length + sizes.length := by
  match sizes with
  | [] => contradiction
  | [last] =>
    have whole : digits.take last = digits := List.take_of_length_le (by simp [length])
    simp [withHyphens, withoutHyphens, whole, length]
  | size :: next :: sizes =>
    rw [List.sum_cons] at length
    -- The sizes sum up to the digits, so the first group is full.
    have enough : (digits.take size).length = size := by
      rw [List.length_take]
      omega
    have later : (digits.drop size).length = (next :: sizes).sum := by
      rw [List.length_drop]
      omega
    obtain ⟨read, longer⟩ := withoutHyphens_withHyphens (List.cons_ne_nil next sizes) later
    rw [withHyphens] at read longer
    rw [withHyphens, withHyphens, List.intercalate_cons_cons, List.append_assoc, List.singleton_append]
    refine ⟨?_, ?_⟩
    · rw [withoutHyphens, List.drop_left' enough, List.take_left' enough]
      simp only [read, Option.map_some, List.take_append_drop]
    · rw [List.length_append, List.length_cons, enough, List.length_cons]
      rw [List.length_drop] at longer
      omega

theorem bits_lt {text : String} {uuid : Uuid} (read : read? text = some uuid) : uuid.bits < 16 ^ 32 := by
  have hyphenated {chars : List Char} {bits : Nat} (isRead : readHyphenated chars = some bits) :
      bits < 16 ^ 32 := by
    obtain ⟨digits, areDigits, isHex⟩ := Option.bind_eq_some_iff.1 isRead
    have within := readHex_lt isHex
    rwa [length_withoutHyphens areDigits] at within
  unfold read? at read
  obtain ⟨bits, isRead, rfl⟩ := Option.map_eq_some_iff.1 read
  split at isRead
  next alone =>
    have within := readHex_lt isRead
    rwa [beq_iff_eq.1 alone] at within
  next =>
    split at isRead
    next => exact hyphenated isRead
    next =>
      split at isRead
      next => exact hyphenated isRead
      next =>
        split at isRead
        next => exact hyphenated isRead
        next => simp at isRead

theorem read?_toText {uuid : Uuid} (fits : uuid.bits < 16 ^ 32) : read? uuid.toText = some uuid := by
  have some_ : groups ≠ [] := by decide
  obtain ⟨read, longer⟩ := withoutHyphens_withHyphens some_
    (length_hexDigits 32 uuid.bits)
  have isText : uuid.toText.toList = ['-'].intercalate (withHyphens groups (hexDigits 32 uuid.bits)) := by
    have hyphen : "-".toList = ['-'] := rfl
    have same : String.toList ∘ String.ofList = id := funext fun _ => String.toList_ofList
    rw [toText, String.toList_intercalate, List.map_map, hyphen, same, List.map_id]
  have length : uuid.toText.toList.length = 36 := by
    rw [isText]
    rw [length_hexDigits] at longer
    simpa [groups] using longer
  unfold read?
  simp only [length, readHyphenated]
  rw [isText, read]
  simp only [Option.bind_some, readHex_hexDigits, Nat.mod_eq_of_lt fits]
  rfl

end QueryProjection.Uuid
