import ServiceManual.Text.Utf8

/-!
# YAML sources

The characters of a YAML text, as far as they can be read.  A text is read either as a whole, and
then nothing of it is there if anything of it is wrong, or portion by portion while it is being
used.  In that case what is wrong with a portion is found out only when a character of it is asked
for, and the portions before it are there.
-/

namespace ServiceManual.Yaml

/-- Why a YAML text gives no value. -/
inductive Failure
  /-- The text is not YAML, or not what this reader takes. -/
  | malformed (what : String)
  /-- A scalar or an escape denotes something that does not exist. -/
  | impossible (what : String)
  /-- A number is too large for what is done with it. -/
  | oversized (what : String)
  /-- The tag of truth values is put on another word. -/
  | unknownWord (word : String)
  /-- The tag of numbers is put on a text without characters. -/
  | emptyNumber
  /-- The tag of dates is put on another text. -/
  | unreadableDate
  /-- The tag of dates is put on a mapping that stands for a text. -/
  | datedMapping
  /-- The bytes of the text are not UTF-8. -/
  | undecodable
  deriving DecidableEq, Repr

/-- A character that a YAML text may contain. -/
def isPrintable (c : Char) : Bool :=
  let code := c.toNat
  code == 9 || code == 10 || code == 13 || (0x20 ≤ code && code ≤ 0x7E) || code == 0x85 ||
    (0xA0 ≤ code && code ≤ 0xD7FF) || (0xE000 ≤ code && code ≤ 0xFFFD) ||
    (0x10000 ≤ code && code ≤ 0x10FFFF)

/-- The lines of a text ended by line feeds, however they were ended. -/
def endLines : List Char → List Char
  | '\r' :: '\n' :: rest => '\n' :: endLines rest
  | '\r' :: rest => '\n' :: endLines rest
  | c :: rest => c :: endLines rest
  | [] => []

/-- The characters that can be read, and why what comes after them cannot; without a failure the
text ends there. -/
structure Source where
  text : List Char
  failure : Option Failure := none
  deriving DecidableEq, Repr

namespace Source

/-- A text holds a character that no YAML text may contain. -/
def unprintable : Failure := .malformed "special characters are not allowed"

/-! ## As a whole -/

/-- The number of bytes that are decoded at a time. -/
def blockSize : Nat := 8192

/-- A text that is read as a whole. -/
def ofWhole (bytes : ByteArray) : Source :=
  match Text.decode blockSize bytes with
  | .error _ => ⟨[], some .undecodable⟩
  | .ok text =>
    let lines := endLines text.toList
    if lines.all isPrintable then ⟨lines, none⟩ else ⟨[], some unprintable⟩

/-! ## In portions -/

/-- The number of characters that are read at a time.  The first two portions are read
together. -/
def portionSize : Nat := 4096

/-- What is there of a text if the portion with the character at this position cannot be read. -/
def before (position : Nat) (failure : Failure) (lines : List Char) : Source :=
  let portion := position / portionSize
  ⟨if portion < 2 then [] else lines.take (portion * portionSize), some failure⟩

/-- What is there of a text that is decoded. -/
def ofLines (lines : List Char) : Source :=
  match lines.findIdx? fun c => !isPrintable c with
  | some position => before position unprintable lines
  | none => ⟨lines, none⟩

/-- A text without a carriage return at its end, which is held back until it is known whether a
line feed follows. -/
def withoutReturn (s : List Char) : List Char :=
  if s.getLast? == some '\r' then s.dropLast else s

/-- A text that is read in portions. -/
def inPortions (bytes : ByteArray) : Source :=
  match Text.decode blockSize bytes with
  | .ok text => ofLines (endLines text.toList)
  | .error start =>
    let lines := endLines (withoutReturn start)
    let decoded := before lines.length .undecodable lines
    let printable := ofLines decoded.text
    if printable.failure.isSome then printable else decoded

/-- A text of characters that a YAML text may contain is all there. -/
theorem ofLines_eq_self {lines : List Char} (h : lines.all isPrintable = true) :
    ofLines lines = ⟨lines, none⟩ := by
  have hnone : lines.findIdx? (fun c => !isPrintable c) = none := by
    rw [List.findIdx?_eq_none_iff]
    intro c hc
    simp [List.all_eq_true.mp h c hc]
  simp [ofLines, hnone]

end Source

end ServiceManual.Yaml
