import ServiceManual.Yaml.Source

/-!
# Reading YAML character by character

The classes of characters that YAML tells apart, the position in a text, and the small scanners
that everything else is made of.  A text ends its lines with the line feed, the next line
character, or the line or paragraph separator; carriage returns have been turned into line feeds
before.

A scanner that looks at a character behind those that can be read fails for the reason why they end
there.  Moving on always looks at the character that comes next.
-/

namespace ServiceManual.Yaml

/-! ## Characters -/

/-- A character that ends a line. -/
def isBreak (c : Char) : Bool :=
  c == '\n' || c == '\x85' || c == '\u2028' || c == '\u2029'

/-- A space or a tab. -/
def isSpace (c : Char) : Bool :=
  c == ' ' || c == '\t'

/-- The end of the text, or a character that ends a line. -/
def isBreakOrEnd : Option Char → Bool
  | none => true
  | some c => isBreak c

/-- The end of the text, a space, or a character that ends a line. -/
def isEndOfWord : Option Char → Bool
  | none => true
  | some c => c == ' ' || isBreak c

/-- The end of the text, a space, a tab, or a character that ends a line. -/
def isBlankOrEnd : Option Char → Bool
  | none => true
  | some c => isSpace c || isBreak c

/-- A character of a name: a letter, a digit, a hyphen or an underscore. -/
def isNameChar (c : Char) : Bool :=
  c.isAlphanum || c == '-' || c == '_'

/-- The value of a hexadecimal digit. -/
def hexValue? (c : Char) : Option Nat :=
  if c.isDigit then some (c.toNat - '0'.toNat)
  else if 'a' ≤ c && c ≤ 'f' then some (c.toNat - 'a'.toNat + 10)
  else if 'A' ≤ c && c ≤ 'F' then some (c.toNat - 'A'.toNat + 10)
  else none

/-- The byte order mark. -/
def byteOrderMark : Char := '\uFEFF'

/-! ## Position -/

/-- A position in a text: the characters after it, how many are before it, its line and column, and
why no more characters can be read. -/
structure Cursor where
  rest : List Char
  index : Nat := 0
  line : Nat := 0
  column : Nat := 0
  failure : Option Failure := none

namespace Cursor

/-- The start of a source. -/
def start (source : Source) : Cursor :=
  { rest := source.text, failure := source.failure }

/-- The position after the next character.  A byte order mark takes no column. -/
def next (cursor : Cursor) : Cursor :=
  match cursor.rest with
  | [] => cursor
  | c :: rest =>
    if isBreak c then
      { cursor with rest, index := cursor.index + 1, line := cursor.line + 1, column := 0 }
    else
      { cursor with
        rest, index := cursor.index + 1
        column := if c = byteOrderMark then cursor.column else cursor.column + 1 }

/-- The position some characters further on. -/
def skip : Nat → Cursor → Cursor
  | 0, cursor => cursor
  | n + 1, cursor => skip n cursor.next

end Cursor

/-! ## Scanners -/

/-- A scanner moves on in a text and gives a result, or fails. -/
abbrev Scan := StateT Cursor (Except Failure)

/-- The text is malformed. -/
def malformed {α : Type} (what : String) : Scan α :=
  throw (.malformed what)

/-- The character some places further on. -/
def peekAt (places : Nat) : Scan (Option Char) := do
  let cursor ← get
  match cursor.rest[places]?, cursor.failure with
  | none, some failure => throw failure
  | c, _ => return c

/-- The next character. -/
def peek : Scan (Option Char) :=
  peekAt 0

/-- Move on. -/
def advance (places : Nat) : Scan Unit := do
  modify (Cursor.skip places)
  let _ ← peek

/-- Take the characters of a class. -/
def takeWhile (member : Char → Bool) : Scan (List Char) := do
  let taken := (← get).rest.takeWhile member
  advance taken.length
  return taken

/-- Does a line that starts a document or ends one begin here, wherever it stands? -/
def atMarker : Scan Bool := do
  let _ ← peekAt 2
  let start := (← get).rest.take 3
  if start == ['-', '-', '-'] || start == ['.', '.', '.'] then return isBlankOrEnd (← peekAt 3)
  else return false

/-- Take the end of a line, if it is here.  Line feed and next line count as one and the same. -/
def takeBreak : Scan (List Char) := do
  match ← peek with
  | some c =>
    if c = '\n' || c = '\x85' then
      advance 1
      return ['\n']
    else if isBreak c then
      advance 1
      return [c]
    else return []
  | none => return []

/-- Pass over spaces and a comment. -/
def skipComment : Scan Unit := do
  let _ ← takeWhile (· == ' ')
  if (← peek) == some '#' then
    let _ ← takeWhile (!isBreak ·)

/-- Pass over the rest of a line that may hold nothing more. -/
def finishLine : Scan Unit := do
  skipComment
  if isBreakOrEnd (← peek) then
    let _ ← takeBreak
  else malformed "expected a comment or a line break"

/-- Take a name. -/
def takeName : Scan String := do
  let name ← takeWhile isNameChar
  if name.isEmpty then malformed "expected an alphabetic or numeric character"
  else return String.ofList name

/-- The number that this many hexadecimal digits denote that stand some places further on. -/
def hexAt (places : Nat) : Nat → Nat → Scan Nat
  | 0, value => return value
  | n + 1, value => do
    match (← peekAt places).bind hexValue? with
    | some digit => hexAt (places + 1) n (16 * value + digit)
    | none => malformed "expected a hexadecimal digit"

end ServiceManual.Yaml
