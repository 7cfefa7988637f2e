import ServiceManual.Text.Surrogate
import ServiceManual.Yaml.Cursor

/-!
# The text of a YAML scalar

A scalar is written between quotes, as a block of indented lines, or plain.  In each style the
text may go over several lines, and the ends of lines are folded: one line end becomes a space,
and of several the first one is dropped.  In a literal block they are kept.

The scanners here take fuel.  Each round of a loop takes at least one character, so fuel for more
than the characters that are left is enough.
-/

namespace ServiceManual.Yaml

/-- What the end of a line and the empty lines after it become when they are folded. -/
def fold (lineEnd : List Char) (empty : List Char) : List Char :=
  if lineEnd != ['\n'] then lineEnd ++ empty
  else if empty.isEmpty then [' ']
  else empty

/-! ## Between quotes -/

/-- The character that a letter after a backslash stands for. -/
def escaped? (c : Char) : Option Char :=
  match c with
  | '0' => some '\x00'
  | 'a' => some '\x07'
  | 'b' => some '\x08'
  | 't' => some '\t'
  | '\t' => some '\t'
  | 'n' => some '\n'
  | 'v' => some '\x0b'
  | 'f' => some '\x0c'
  | 'r' => some '\r'
  | 'e' => some '\x1b'
  | ' ' => some ' '
  | '"' => some '"'
  | '\\' => some '\\'
  | '/' => some '/'
  | 'N' => some '\x85'
  | '_' => some '\xa0'
  | 'L' => some '\u2028'
  | 'P' => some '\u2029'
  | _ => none

/-- The number of hexadecimal digits after a letter that introduces a code point. -/
def codeLength? (c : Char) : Option Nat :=
  match c with
  | 'x' => some 2
  | 'u' => some 4
  | 'U' => some 8
  | _ => none

/-- The empty lines within quotes, each with the spaces before the next text. -/
def quotedEmptyLines : Nat → List Char → Scan (List Char)
  | 0, taken => return taken
  | fuel + 1, taken => do
    if ← atMarker then malformed "found unexpected document separator"
    else
      let _ ← takeWhile isSpace
      match ← takeBreak with
      | [] => return taken
      | lineEnd => quotedEmptyLines fuel (taken ++ lineEnd)

/-- Spaces within quotes, or the fold that they and a line end make. -/
def quotedSpaces (fuel : Nat) : Scan (List Char) := do
  let spaces ← takeWhile isSpace
  match ← peek with
  | none => malformed "found unexpected end of stream"
  | some _ =>
    match ← takeBreak with
    | [] => return spaces
    | lineEnd => return fold lineEnd (← quotedEmptyLines fuel [])

/-- The character with a code point that is given by an escape.  There is a last code point, and a
last number that is taken for one at all. -/
def charOfCode (code : Nat) : Scan Char :=
  match Text.ofCode? code with
  | some c => return c
  | none =>
    throw (if code < 0x80000000 then .impossible "chr() arg not in range(0x110000)"
      else .oversized "Python int too large to convert to C int")

/-- What a backslash and the characters after it stand for. -/
def takeEscape (fuel : Nat) : Scan (List Char) := do
  advance 1
  match ← peek with
  | none => malformed "found unexpected end of stream"
  | some c =>
    match escaped? c, codeLength? c with
    | some char, _ =>
      advance 1
      return [char]
    | none, some length =>
      advance 1
      let char ← charOfCode (← hexAt 0 length 0)
      advance length
      return [char]
    | none, none =>
      match ← takeBreak with
      | [] => malformed "found unknown escape character"
      | _ => quotedEmptyLines fuel []

/-- The text up to the closing quote. -/
def quotedText (double : Bool) : Nat → List Char → Scan (List Char)
  | 0, _ => malformed "found unexpected end of stream"
  | fuel + 1, taken => do
    match ← peek with
    | none => malformed "found unexpected end of stream"
    | some c =>
      if c = (if double then '"' else '\'') then
        if !double && (← peekAt 1) == some '\'' then
          advance 2
          quotedText double fuel (c :: taken)
        else
          advance 1
          return taken.reverse
      else if double && c = '\\' then
        let meant ← takeEscape fuel
        quotedText double fuel (meant.reverse ++ taken)
      else if isSpace c || isBreak c then
        let meant ← quotedSpaces fuel
        quotedText double fuel (meant.reverse ++ taken)
      else
        advance 1
        quotedText double fuel (c :: taken)

/-- A scalar between quotes. -/
def takeQuoted (double : Bool) (fuel : Nat) : Scan String := do
  advance 1
  return String.ofList (← quotedText double fuel [])

/-! ## In a block -/

/-- What becomes of the line ends at the end of a block. -/
inductive Chomping
  | strip
  | clip
  | keep
  deriving DecidableEq

/-- The sign that chooses what becomes of the last line ends. -/
def takeChomping : Scan (Option Chomping) := do
  match ← peek with
  | some '+' =>
    advance 1
    return some .keep
  | some '-' =>
    advance 1
    return some .strip
  | _ => return none

/-- The digit that gives the indentation of a block. -/
def takeIndentation : Scan (Option Nat) := do
  match ← peek with
  | some c =>
    if c.isDigit then
      if c = '0' then malformed "expected indentation indicator in the range 1-9"
      else
        advance 1
        return some (c.toNat - '0'.toNat)
    else return none
  | none => return none

/-- The signs after the indicator of a block, in either order. -/
def takeBlockHeader : Scan (Chomping × Option Nat) := do
  let header ← do
    match ← takeChomping with
    | some chomping => pure (chomping, ← takeIndentation)
    | none =>
      let indentation ← takeIndentation
      let chomping ← if indentation.isSome then takeChomping else pure none
      pure (chomping.getD .clip, indentation)
  if isEndOfWord (← peek) then return header
  else malformed "expected chomping or indentation indicators"

/-- The empty lines before the first line of a block, and the greatest column reached in them. -/
def leadingLines : Nat → List Char → Nat → Scan (List Char × Nat)
  | 0, taken, greatest => return (taken, greatest)
  | fuel + 1, taken, greatest => do
    if (← peek) == some ' ' then
      advance 1
      leadingLines fuel taken (max greatest (← get).column)
    else match ← takeBreak with
      | [] => return (taken, greatest)
      | lineEnd => leadingLines fuel (taken ++ lineEnd) greatest

/-- Pass over spaces up to a column. -/
def skipIndentation (column : Nat) : Scan Unit := do
  let cursor ← get
  let spaces := (cursor.rest.take (column - cursor.column)).takeWhile (· == ' ')
  advance spaces.length

/-- Empty lines within a block, with the indentation of the line after them. -/
def emptyLines (column : Nat) : Nat → List Char → Scan (List Char)
  | 0, taken => return taken
  | fuel + 1, taken => do
    skipIndentation column
    match ← takeBreak with
    | [] => return taken
    | lineEnd => emptyLines column fuel (taken ++ lineEnd)

/-- Is there a line of the block here? -/
def atBlockLine (column : Nat) : Scan Bool := do
  if (← get).column == column then return (← peek).isSome else return false

/-- The lines of a block, given the empty lines before the first one.  Gives the text up to the
last line, the end of that line, and the empty lines after it. -/
def blockLines (folded : Bool) (column : Nat) : Nat → List Char → List Char →
    Scan (List Char × List Char × List Char)
  | 0, text, before => return (text, [], before)
  | fuel + 1, text, before => do
    let indented := (← peek).any isSpace
    let line ← takeWhile (!isBreak ·)
    let lineEnd ← takeBreak
    let empty ← emptyLines column (fuel + 1) []
    let text := text ++ before ++ line
    if ← atBlockLine column then
      if folded && lineEnd == ['\n'] && !indented && !(← peek).any isSpace then
        blockLines folded column fuel (text ++ (if empty.isEmpty then [' '] else [])) empty
      else blockLines folded column fuel (text ++ lineEnd) empty
    else return (text, lineEnd, empty)

/-- A scalar in a block, within a collection of this indentation. -/
def takeBlock (folded : Bool) (indentation : Int) (fuel : Nat) : Scan String := do
  advance 1
  let (chomping, increment) ← takeBlockHeader
  finishLine
  let least := (max 1 (indentation + 1)).toNat
  let (column, before) ← do
    match increment with
    | none =>
      let (before, greatest) ← leadingLines fuel [] 0
      pure (max least greatest, before)
    | some increment =>
      let column := least + increment - 1
      pure (column, ← emptyLines column fuel [])
  let (text, lineEnd, after) ← do
    if ← atBlockLine column then blockLines folded column fuel [] before
    else pure ([], [], before)
  let ending := match chomping with
    | .strip => []
    | .clip => lineEnd
    | .keep => lineEnd ++ after
  return String.ofList (text ++ ending)

/-! ## Plain -/

/-- A character that ends a plain scalar within brackets or braces. -/
def isFlowIndicator (c : Char) : Bool :=
  c == ',' || c == '[' || c == ']' || c == '{' || c == '}'

/-- Does a plain scalar end before this character and the one behind it, if that is there? -/
def endsPlain (inFlow : Bool) (c : Char) (next : Option Char) : Bool :=
  isSpace c || isBreak c ||
    (c == ':' && (isBlankOrEnd next || (inFlow && next.any isFlowIndicator))) ||
    (inFlow && (isFlowIndicator c || c == '?'))

/-- The characters of a plain scalar up to a space or to what ends the scalar. -/
def plainPiece (inFlow : Bool) : List Char → List Char
  | [] => []
  | c :: rest => if endsPlain inFlow c rest.head? then [] else c :: plainPiece inFlow rest

/-- Take the characters of a plain scalar up to a space or to what ends the scalar.  A colon at the
end of what can be read leaves open whether it ends there. -/
def takePlainPiece (inFlow : Bool) : Scan (List Char) := do
  let piece := plainPiece inFlow (← get).rest
  if (← peekAt piece.length) == some ':' then
    let _ ← peekAt (piece.length + 1)
  advance piece.length
  return piece

/-- The empty lines within a plain scalar, with the spaces before the next text.  Nothing if a
document starts or ends there. -/
def plainEmptyLines : Nat → List Char → Scan (Option (List Char))
  | 0, taken => return some taken
  | fuel + 1, taken => do
    if ← atMarker then return none
    else
      let _ ← takeWhile (· == ' ')
      match ← takeBreak with
      | [] => return some taken
      | lineEnd => plainEmptyLines fuel (taken ++ lineEnd)

/-- The space after a piece of a plain scalar, and whether it goes over the end of a line.  No
space ends the scalar. -/
def plainSpaces (fuel : Nat) : Scan (List Char × Bool) := do
  let spaces ← takeWhile (· == ' ')
  match ← takeBreak with
  | [] => return (spaces, false)
  | lineEnd =>
    match ← plainEmptyLines fuel [] with
    | none => return ([], true)
    | some empty => return (fold lineEnd empty, true)

/-- The pieces of a plain scalar, given those before and the space after them. -/
def plainText (inFlow : Bool) (column : Int) : Nat → List Char → List Char → Bool →
    Scan (List Char × Bool)
  | 0, text, _, broken => return (text, broken)
  | fuel + 1, text, spaces, broken => do
    let piece ← takePlainPiece inFlow
    if piece.isEmpty then return (text, broken)
    else
      let (after, broken) ← plainSpaces fuel
      let text := text ++ spaces ++ piece
      if after.isEmpty || (← peek) == some '#' || (!inFlow && (← get).column < column) then
        return (text, broken)
      else plainText inFlow column fuel text after broken

/-- A plain scalar within a collection of this indentation, and whether a line ended after it. -/
def takePlain (inFlow : Bool) (indentation : Int) (fuel : Nat) : Scan (String × Bool) := do
  let (text, broken) ← plainText inFlow (indentation + 1) fuel [] [] false
  return (String.ofList text, broken)

end ServiceManual.Yaml
