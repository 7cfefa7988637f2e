/-!
# Decoding bytes

A text is kept in bytes as UTF-8.  Bytes that come in blocks are decoded block by block, and where
they turn out to be no text, the blocks before have been delivered already.
-/

namespace ServiceManual.Text

/-- Where decoding stands between two bytes: the bits of the character begun, how many bytes it
still takes, and the least and the greatest value of the next one of these. -/
structure Utf8State where
  code : Nat := 0
  owed : Nat := 0
  least : Nat := 0x80
  greatest : Nat := 0xBF
  deriving DecidableEq, Repr

namespace Utf8State

/-- The state after the first byte of a character. -/
def begin? (byte : Nat) : Option Utf8State :=
  if byte < 0x80 then some { code := byte }
  else if byte < 0xC2 then none
  else if byte < 0xE0 then some { code := byte - 0xC0, owed := 1 }
  else if byte < 0xF0 then
    some ⟨byte - 0xE0, 2, if byte = 0xE0 then 0xA0 else 0x80, if byte = 0xED then 0x9F else 0xBF⟩
  else if byte < 0xF5 then
    some ⟨byte - 0xF0, 3, if byte = 0xF0 then 0x90 else 0x80, if byte = 0xF4 then 0x8F else 0xBF⟩
  else none

/-- The state after one more byte, unless no text goes on with it. -/
def step? (state : Utf8State) (byte : Nat) : Option Utf8State :=
  if state.owed = 0 then begin? byte
  else if state.least ≤ byte && byte ≤ state.greatest then
    some { code := 64 * state.code + (byte - 0x80), owed := state.owed - 1 }
  else none

theorem begin?_ascii {byte : Nat} (h : byte < 0x80) : begin? byte = some { code := byte } := by
  simp [begin?, h]

end Utf8State

/-- The characters, the last one first, that the blocks of bytes hold before the block in which
decoding fails, unless it does not fail.  Given are the number of bytes before, the characters in
them, and those that had been delivered when the present block began. -/
def beforeFailure? (blockSize : Nat) (state : Utf8State) (position : Nat)
    (decoded delivered : List Char) : List UInt8 → Option (List Char)
  | [] => if state.owed = 0 then none else some decoded
  | byte :: rest =>
    let delivered := if position % blockSize = 0 then decoded else delivered
    match state.step? byte.toNat with
    | none => some delivered
    | some next =>
      let decoded := if next.owed = 0 then Char.ofNat next.code :: decoded else decoded
      beforeFailure? blockSize next (position + 1) decoded delivered rest

/-- The text that bytes hold, or else what is delivered of it when they come in blocks. -/
def decode (blockSize : Nat) (bytes : ByteArray) : Except (List Char) String :=
  match String.fromUTF8? bytes with
  | some text => .ok text
  | none => .error ((beforeFailure? blockSize {} 0 [] [] bytes.toList).getD []).reverse

end ServiceManual.Text
