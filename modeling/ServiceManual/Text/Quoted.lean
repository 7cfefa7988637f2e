import ServiceManual.Text.CaseTable
import ServiceManual.Text.PrintableTable
import ServiceManual.Text.Surrogate

/-!
# Quoted texts

A text as it is shown in a message: between quotes, with the characters that could not be told
there written as escapes.  Single quotes are taken unless the text holds single quotes and no
double ones.  Bytes are shown likewise, behind a letter.
-/

namespace ServiceManual.Text

/-- Can a character be shown as it is? -/
def isShown (c : Char) : Bool :=
  let code := c.toNat
  if code < 127 then 32 ≤ code else !inRanges unprintableRanges code

/-- The quote that a text is put between. -/
def quoteFor (s : List Char) : Char :=
  if s.contains '\'' && !s.contains '"' then '"' else '\''

/-- A code point as an escape of the shortest form. -/
def escape (code : Nat) : List Char :=
  if code < 0x100 then '\\' :: 'x' :: hexDigits 2 code
  else if code < 0x10000 then '\\' :: 'u' :: hexDigits 4 code
  else '\\' :: 'U' :: hexDigits 8 code

/-- A character between quotes of this kind. -/
def quoteChar (quote c : Char) : List Char :=
  if c = quote || c = '\\' then ['\\', c]
  else if c = '\n' then ['\\', 'n']
  else if c = '\t' then ['\\', 't']
  else if c = '\r' then ['\\', 'r']
  else if isSurrogate c || !isShown c then escape (codeOf c)
  else [c]

/-- A text between quotes. -/
def quoted (text : String) : String :=
  let s := text.toList
  let quote := quoteFor s
  String.ofList (quote :: s.flatMap (quoteChar quote) ++ [quote])

/-- Bytes between quotes. -/
def quotedBytes (bytes : List UInt8) : String :=
  let s := bytes.map fun byte => Char.ofNat byte.toNat
  let quote := quoteFor s
  let byteText (c : Char) : List Char :=
    if 127 ≤ c.toNat then escape c.toNat else quoteChar quote c
  String.ofList ('b' :: quote :: s.flatMap byteText ++ [quote])

end ServiceManual.Text
