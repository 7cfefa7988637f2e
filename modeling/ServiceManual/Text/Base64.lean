/-!
# Bytes in letters

Bytes can be written in sixty-four letters, four of them for three bytes, with equals signs to fill
up the last four.  Reading is lenient: any other character is passed over, and what stands behind
the equals signs of a complete group is not looked at.
-/

namespace ServiceManual.Text

/-- The six bits that a letter stands for. -/
def sixBits? (c : Char) : Option Nat :=
  if 'A' ≤ c && c ≤ 'Z' then some (c.toNat - 'A'.toNat)
  else if 'a' ≤ c && c ≤ 'z' then some (c.toNat - 'a'.toNat + 26)
  else if '0' ≤ c && c ≤ '9' then some (c.toNat - '0'.toNat + 52)
  else if c = '+' then some 62
  else if c = '/' then some 63
  else none

/-- The bytes that a group of letters stands for.  A single letter stands for none. -/
def groupBytes : List Nat → List UInt8
  | [a, b] => [(4 * a + b / 16).toUInt8]
  | [a, b, c] => [(4 * a + b / 16).toUInt8, (16 * b + c / 4).toUInt8]
  | [a, b, c, d] => [(4 * a + b / 16).toUInt8, (16 * b + c / 4).toUInt8, (64 * c + d).toUInt8]
  | _ => []

/-- The bytes written in the rest of a text, given the letters of the group begun and the number of
equals signs behind the last one of them.  Nothing if a group is left incomplete. -/
def decodeBase64From (group : List Nat) (fills : Nat) : List Char → Option (List UInt8)
  | [] => if group.isEmpty then some [] else none
  | c :: rest =>
    if c = '=' then
      if 2 ≤ group.length && 4 ≤ group.length + fills + 1 then some (groupBytes group)
      else decodeBase64From group (if 2 ≤ group.length then fills + 1 else fills) rest
    else
      match sixBits? c with
      | none => decodeBase64From group fills rest
      | some bits =>
        if group.length = 3 then
          (decodeBase64From [] 0 rest).map (groupBytes (group ++ [bits]) ++ ·)
        else decodeBase64From (group ++ [bits]) 0 rest

/-- The bytes that are written in a text of ASCII characters. -/
def decodeBase64? (s : List Char) : Option (List UInt8) :=
  if s.all fun c => c.toNat < 128 then decodeBase64From [] 0 s else none

/-- Four letters are three bytes, whatever follows. -/
theorem decodeBase64From_quad {a b c d : Char} {i j k l : Nat} (rest : List Char)
    (ha : sixBits? a = some i) (hb : sixBits? b = some j) (hc : sixBits? c = some k)
    (hd : sixBits? d = some l) (hfill : ∀ x ∈ [a, b, c, d], x ≠ '=') :
    decodeBase64From [] 0 (a :: b :: c :: d :: rest) =
      (decodeBase64From [] 0 rest).map (groupBytes [i, j, k, l] ++ ·) := by
  simp_all [decodeBase64From]

end ServiceManual.Text
