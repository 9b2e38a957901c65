set_option autoImplicit false

namespace QueryProjection.Utf8

def continuation (code : Nat) : Nat := 0x80 + code % 0x40

def encodeChar (c : Char) : List Nat :=
  let code := c.toNat
  if code < 0x80 then [code]
  else if code < 0x800 then [0xC0 + code / 0x40, continuation code]
  else if code < 0x10000 then
    [0xE0 + code / 0x1000, continuation (code / 0x40), continuation code]
  else
    [0xF0 + code / 0x40000, continuation (code / 0x1000), continuation (code / 0x40),
      continuation code]

def encode (chars : List Char) : List Nat :=
  chars.flatMap encodeChar

def replacement : Char := '\uFFFD'

structure Pending where
  missing : Nat
  least : Nat
  most : Nat
  bits : Nat

def start (byte : Nat) : Char ⊕ Pending :=
  if byte < 0x80 then .inl (Char.ofNat byte)
  else if byte < 0xC2 then .inl replacement
  else if byte < 0xE0 then .inr ⟨1, 0x80, 0xBF, byte - 0xC0⟩
  else if byte == 0xE0 then .inr ⟨2, 0xA0, 0xBF, 0⟩
  else if byte == 0xED then .inr ⟨2, 0x80, 0x9F, 0xD⟩
  else if byte < 0xF0 then .inr ⟨2, 0x80, 0xBF, byte - 0xE0⟩
  else if byte == 0xF0 then .inr ⟨3, 0x90, 0xBF, 0⟩
  else if byte == 0xF4 then .inr ⟨3, 0x80, 0x8F, 4⟩
  else if byte < 0xF4 then .inr ⟨3, 0x80, 0xBF, byte - 0xF0⟩
  else .inl replacement

def decodeFrom : Option Pending → List Nat → List Char
  | none, [] => []
  | some _, [] => [replacement]
  | none, byte :: rest =>
      match start byte with
      | .inl c => c :: decodeFrom none rest
      | .inr pending => decodeFrom (some pending) rest
  | some pending, byte :: rest =>
      if pending.least ≤ byte && byte ≤ pending.most then
        let bits := pending.bits * 0x40 + (byte - 0x80)
        if pending.missing == 1 then Char.ofNat bits :: decodeFrom none rest
        else decodeFrom (some ⟨pending.missing - 1, 0x80, 0xBF, bits⟩) rest
      else
        match start byte with
        | .inl c => replacement :: c :: decodeFrom none rest
        | .inr next => replacement :: decodeFrom (some next) rest

def decode (bytes : List Nat) : List Char :=
  decodeFrom none bytes

end QueryProjection.Utf8
