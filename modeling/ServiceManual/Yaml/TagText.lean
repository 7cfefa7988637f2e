import ServiceManual.Number.Numeral
import ServiceManual.Yaml.Cursor

/-!
# Tags and directives in a YAML text

A tag names the kind of a node.  It is written as a handle and a suffix, where a handle stands for
a longer text that a directive may choose, or in full between angle brackets.
-/

namespace ServiceManual.Yaml

/-- A character of the suffix of a tag. -/
def isTagChar (c : Char) : Bool :=
  c.isAlphanum || "-;/?:@&=+$,_.!~*'()[]".toList.contains c

/-- Bytes that are written as hexadecimal digits, each after a percent sign. -/
def takeBytes : Nat → List UInt8 → Scan (List UInt8)
  | 0, taken => return taken
  | fuel + 1, taken => do
    if (← peek) == some '%' then
      advance 1
      let byte ← hexAt 0 2 0
      advance 2
      takeBytes fuel (taken ++ [byte.toUInt8])
    else return taken

/-- The characters of a tag, escaped ones decoded. -/
def takeTagChars : Nat → List Char → Scan (List Char)
  | 0, taken => return taken
  | fuel + 1, taken => do
    let plain ← takeWhile isTagChar
    let taken := taken ++ plain
    if (← peek) == some '%' then
      match String.fromUTF8? (← takeBytes fuel []).toByteArray with
      | some text => takeTagChars fuel (taken ++ text.toList)
      | none => malformed "expected the bytes of a character"
    else return taken

/-- The suffix of a tag. -/
def takeSuffix : Scan String := do
  let text ← takeTagChars ((← get).rest.length + 1) []
  if text.isEmpty then malformed "expected a tag"
  else return String.ofList text

/-- The handle of a tag: two exclamation marks with a name between them or none. -/
def takeHandle : Scan String := do
  if (← peek) != some '!' then malformed "expected '!'"
  advance 1
  if (← peek) == some ' ' then return "!"
  let name ← takeWhile isNameChar
  if (← peek) != some '!' then malformed "expected '!'"
  advance 1
  return String.ofList ('!' :: name ++ ['!'])

/-- A space or the end of a line has to follow. -/
def expectEndOfWord : Scan Unit := do
  if !isEndOfWord (← peek) then malformed "expected ' '"

/-- A tag: its handle, unless it is written in full, and its suffix. -/
def takeTag : Scan (Option String × String) := do
  let second ← peekAt 1
  let tag ← do
    if second == some '<' then
      advance 2
      let suffix ← takeSuffix
      if (← peek) != some '>' then malformed "expected '>'"
      advance 1
      pure (none, suffix)
    else if isBlankOrEnd second then
      advance 1
      pure (none, "!")
    else
      let word := ((← get).rest.drop 1).takeWhile fun c => !isEndOfWord (some c) && c != '!'
      if (← peekAt (word.length + 1)) == some '!' then
        let handle ← takeHandle
        pure (some handle, ← takeSuffix)
      else
        advance 1
        pure (some "!", ← takeSuffix)
  expectEndOfWord
  return tag

/-! ## Directives -/

/-- What a directive says. -/
inductive Directive
  | version (major : Nat)
  | tagHandle (handle expansion : String)
  | other
  deriving DecidableEq, Repr

/-- A number of a version. -/
def takeNumber : Scan Nat := do
  let digits ← takeWhile Char.isDigit
  if digits.isEmpty then malformed "expected a digit"
  match Numeral.lengthProblem? digits.length with
  | some problem => throw (.impossible problem)
  | none => return Numeral.digitValue digits

/-- A directive, with the rest of its line. -/
def takeDirective : Scan Directive := do
  advance 1
  let name ← takeName
  expectEndOfWord
  let directive ← do
    if name == "YAML" then
      let _ ← takeWhile (· == ' ')
      let major ← takeNumber
      if (← peek) != some '.' then malformed "expected a digit or '.'"
      advance 1
      let _ ← takeNumber
      expectEndOfWord
      pure (.version major)
    else if name == "TAG" then
      let _ ← takeWhile (· == ' ')
      let handle ← takeHandle
      if (← peek) != some ' ' then malformed "expected ' '"
      let _ ← takeWhile (· == ' ')
      let expansion ← takeSuffix
      expectEndOfWord
      pure (.tagHandle handle expansion)
    else
      let _ ← takeWhile (!isBreak ·)
      pure .other
  finishLine
  return directive

end ServiceManual.Yaml
