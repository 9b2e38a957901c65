import Mathlib.Data.List.TakeWhile
import QueryProjection.Proofs.Url.Utf8
import QueryProjection.Url.Form

set_option autoImplicit false

namespace QueryProjection

namespace Utf8

theorem encodeChar_ascii {c : Char} (ascii : c.toNat < 0x80) : encodeChar c = [c.toNat] := by
  simp [encodeChar, ascii]

theorem encodeChar_lt (c : Char) : ∀ byte ∈ encodeChar c, byte < 0x100 := by
  intro byte isByte
  have valid := toNat_valid c
  simp only [encodeChar, continuation] at isByte
  split at isByte
  next => simp only [List.mem_singleton] at isByte; omega
  next =>
    split at isByte
    next => simp only [List.mem_cons, List.not_mem_nil, or_false] at isByte; omega
    next =>
      split at isByte
      next => simp only [List.mem_cons, List.not_mem_nil, or_false] at isByte; omega
      next => simp only [List.mem_cons, List.not_mem_nil, or_false] at isByte; omega

@[simp] theorem encode_append (chars later : List Char) :
    encode (chars ++ later) = encode chars ++ encode later := List.flatMap_append

theorem encode_ascii {chars : List Char} (ascii : ∀ c ∈ chars, c.toNat < 0x80) :
    encode chars = chars.map Char.toNat := by
  induction chars with
  | nil => rfl
  | cons c rest ih =>
    obtain ⟨first, later⟩ := List.forall_mem_cons.1 ascii
    rw [encode, List.flatMap_cons, encodeChar_ascii first, ← encode, ih later]
    rfl

end Utf8

namespace Percent

theorem hexValue?_hexDigit : ∀ value < 16, hexValue? (hexDigit value).toNat = some value := by
  decide

theorem hexDigit_ascii : ∀ value < 16, (hexDigit value).toNat < 0x80 := by
  decide

theorem decode_cons {byte : Nat} (plain : byte ≠ percentByte) (rest : List Nat) :
    decode (byte :: rest) = byte :: decode rest := by
  match rest with
  | [] => rfl
  | [_] => rfl
  | _ :: _ :: _ => simp [decode, plain]

theorem encodeByte_ascii {byte : Nat} (isByte : byte < 0x100) :
    ∀ c ∈ encodeByte byte, c.toNat < 0x80 := by
  have high := hexDigit_ascii (byte / 16) (by omega)
  have low := hexDigit_ascii (byte % 16) (by omega)
  simp only [encodeByte, List.forall_mem_cons]
  exact ⟨by decide, high, low, by simp⟩

theorem decode_encodeByte {byte : Nat} (isByte : byte < 0x100) (rest : List Nat) :
    decode (Utf8.encode (encodeByte byte) ++ rest) = byte :: decode rest := by
  have high := hexValue?_hexDigit (byte / 16) (by omega)
  have low := hexValue?_hexDigit (byte % 16) (by omega)
  have whole : byte / 16 * 16 + byte % 16 = byte := by omega
  rw [Utf8.encode_ascii (encodeByte_ascii isByte)]
  simp only [encodeByte, List.map_cons, List.map_nil, List.cons_append, List.nil_append]
  simp [decode, percentByte, high, low, whole]

theorem decode_encodeBytes {bytes : List Nat} (areBytes : ∀ byte ∈ bytes, byte < 0x100)
    (rest : List Nat) :
    decode (Utf8.encode (bytes.flatMap encodeByte) ++ rest) = bytes ++ decode rest := by
  induction bytes with
  | nil => rfl
  | cons byte later ih =>
    obtain ⟨isByte, areLater⟩ := List.forall_mem_cons.1 areBytes
    rw [List.flatMap_cons, Utf8.encode_append, List.append_assoc, decode_encodeByte isByte,
      ih areLater, List.cons_append]

section Encode

variable {keep : Char → Bool}

theorem decode_encode (keeps : ∀ c, keep c = true → c.toNat < 0x80 ∧ c.toNat ≠ percentByte)
    (chars : List Char) : decode (Utf8.encode (encode keep chars)) = Utf8.encode chars := by
  induction chars with
  | nil => rfl
  | cons c rest ih =>
    rw [encode, List.flatMap_cons, ← encode, Utf8.encode_append]
    by_cases kept : keep c = true
    next =>
      obtain ⟨ascii, plain⟩ := keeps c kept
      have first : Utf8.encode [c] = [c.toNat] := Utf8.encode_ascii (by simpa using ascii)
      rw [if_pos kept, first, List.singleton_append, decode_cons plain, ih, Utf8.encode,
        Utf8.encode, List.flatMap_cons, Utf8.encodeChar_ascii ascii, List.singleton_append]
    next =>
      rw [if_neg kept, decode_encodeBytes (Utf8.encodeChar_lt c), ih]
      rfl

theorem mem_encode (digits : ∀ value < 16, keep (hexDigit value) = true) {chars : List Char}
    {c : Char} (isPart : c ∈ encode keep chars) : keep c = true ∨ c = '%' := by
  obtain ⟨original, -, isPart⟩ := List.mem_flatMap.1 isPart
  split at isPart
  next kept =>
    rw [List.mem_singleton.1 isPart]
    exact .inl kept
  next =>
    obtain ⟨byte, isByte, isPart⟩ := List.mem_flatMap.1 isPart
    have small := Utf8.encodeChar_lt original byte isByte
    simp only [encodeByte, List.mem_cons, List.not_mem_nil, or_false] at isPart
    rcases isPart with rfl | rfl | rfl
    · exact .inr rfl
    · exact .inl (digits _ (by omega))
    · exact .inl (digits _ (by omega))

end Encode

end Percent

namespace Text

variable {separator : Char} {part : List Char}

theorem splitAtChar_of_not_mem (whole : separator ∉ part) : splitAtChar separator part = [part] := by
  induction part with
  | nil => rfl
  | cons c rest ih =>
    have apart : c ≠ separator := fun same => whole (same ▸ List.mem_cons_self)
    have later := ih fun isPart => whole (List.mem_cons_of_mem _ isPart)
    simp [splitAtChar, apart, later]

theorem splitAtChar_append (whole : separator ∉ part) (rest : List Char) :
    splitAtChar separator (part ++ separator :: rest) = part :: splitAtChar separator rest := by
  induction part with
  | nil => simp [splitAtChar]
  | cons c later ih =>
    have apart : c ≠ separator := fun same => whole (same ▸ List.mem_cons_self)
    have split_ := ih fun isPart => whole (List.mem_cons_of_mem _ isPart)
    simp [splitAtChar, apart, split_]

end Text

namespace Form

theorem isPlain_ascii {c : Char} (plain : isPlain c = true) : c.toNat < 0x80 := by
  simp only [isPlain, Bool.or_eq_true, beq_iff_eq] at plain
  rcases plain with (((alphanumeric | rfl) | rfl) | rfl) | rfl
  · delta Char.isAlphanum Char.isAlpha Char.isUpper Char.isLower Char.isDigit at alphanumeric
    simp [UInt32.le_iff_toNat_le] at alphanumeric
    omega
  · decide
  · decide
  · decide
  · decide

def keepsText (c : Char) : Bool := isPlain c || c == ' '

theorem mem_encode_keepsText {chars : List Char} {c : Char}
    (isPart : c ∈ Percent.encode keepsText chars) : isPlain c = true ∨ c = ' ' ∨ c = '%' := by
  have digits : ∀ value < 16, keepsText (Percent.hexDigit value) = true := by decide
  rcases Percent.mem_encode digits isPart with kept | isSign
  · simp only [keepsText, Bool.or_eq_true, beq_iff_eq] at kept
    exact kept.imp_right .inl
  · exact .inr (.inr isSign)

theorem not_mem_encodeText {text : String} {separator : Char}
    (ends : separator = '&' ∨ separator = '=') : separator ∉ encodeText text := by
  intro inText
  obtain ⟨c, isPart, written⟩ := List.mem_map.1 inText
  have notPlain : isPlain separator = false := by
    rcases ends with rfl | rfl <;> decide
  have notSign : separator ≠ '%' ∧ separator ≠ '+' := by
    rcases ends with rfl | rfl <;> decide
  unfold spaceToPlus at written
  split at written
  next => exact notSign.2 written.symm
  next notSpace =>
    subst written
    rcases mem_encode_keepsText isPart with plain | isSpace | isSign
    · simp [notPlain] at plain
    · simp [isSpace] at notSpace
    · exact notSign.1 isSign

theorem decodeText_encodeText (text : String) : decodeText (encodeText text) = text := by
  -- A plus sign of the text itself is encoded, so that every one left stands for a space.
  have spaces : (encodeText text).map plusToSpace = Percent.encode keepsText text.toList := by
    rw [encodeText, List.map_map]
    refine (List.map_congr_left fun c isPart => ?_).trans (List.map_id _)
    have notPlus : c ≠ '+' := by
      rintro rfl
      rcases mem_encode_keepsText isPart with plain | isSpace | isSign
      · exact absurd plain (by decide)
      · exact absurd isSpace (by decide)
      · exact absurd isSign (by decide)
    by_cases isSpace : c = ' ' <;> simp [spaceToPlus, plusToSpace, isSpace, notPlus]
  have keeps : ∀ c, keepsText c = true → c.toNat < 0x80 ∧ c.toNat ≠ Percent.percentByte := by
    intro c kept
    have isText : isPlain c = true ∨ c = ' ' := by simpa [keepsText] using kept
    have ascii : c.toNat < 0x80 := by
      rcases isText with plain | rfl
      · exact isPlain_ascii plain
      · decide
    refine ⟨ascii, fun same => ?_⟩
    have isSign : c = '%' := Char.toNat_inj.1 same
    subst isSign
    exact absurd kept (by decide)
  rw [decodeText, spaces, Percent.decode_encode keeps, Utf8.decode_encode, String.ofList_toList]

theorem decodePair_encodePair (pair : String × String) : decodePair (encodePair pair) = pair := by
  have notEnd : ∀ c ∈ encodeText pair.1, (c != '=') = true := by
    intro c isPart
    rw [bne_iff_ne]
    rintro rfl
    exact not_mem_encodeText (.inr rfl) isPart
  unfold decodePair encodePair
  rw [List.takeWhile_append_of_pos notEnd, List.dropWhile_append_of_pos notEnd]
  simp [decodeText_encodeText]

theorem splitAtChar_joinPairs {parts : List (List Char)} (some_ : parts ≠ [])
    (whole : ∀ part ∈ parts, '&' ∉ part) : Text.splitAtChar '&' (joinPairs parts) = parts := by
  match parts with
  | [] => contradiction
  | [part] => exact Text.splitAtChar_of_not_mem (whole part List.mem_cons_self)
  | part :: next :: parts =>
    obtain ⟨first, later⟩ := List.forall_mem_cons.1 whole
    rw [joinPairs, Text.splitAtChar_append first, splitAtChar_joinPairs (List.cons_ne_nil _ _) later]
    exact List.cons_ne_nil _ _

theorem decode_encode (pairs : List (String × String)) : decode (encode pairs) = pairs := by
  unfold decode encode
  rw [String.toList_ofList]
  by_cases none_ : pairs = []
  next =>
    subst none_
    rfl
  next =>
    -- A separator inside of a name or a value is escaped, so splitting gives the pairs back.
    have whole : ∀ part ∈ pairs.map encodePair, '&' ∉ part := by
      rw [List.forall_mem_map]
      intro pair _ isPart
      unfold encodePair at isPart
      rcases List.mem_append.1 isPart with inName | inRest
      · exact not_mem_encodeText (.inl rfl) inName
      · rcases List.mem_cons.1 inRest with isEnd | inValue
        · exact absurd isEnd (by decide)
        · exact not_mem_encodeText (.inl rfl) inValue
    have filled : (pairs.map encodePair).filter (fun part => !part.isEmpty) = pairs.map encodePair := by
      rw [List.filter_eq_self, List.forall_mem_map]
      intro pair _
      simp [encodePair]
    rw [splitAtChar_joinPairs (by simpa using none_) whole, filled, List.map_map]
    refine List.map_id'' ?_ _
    exact decodePair_encodePair

end Form

end QueryProjection
