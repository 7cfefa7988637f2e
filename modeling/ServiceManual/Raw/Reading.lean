import ServiceManual.Checked
import ServiceManual.Number.Numeral

/-!
# Readers of raw values

One reader per shape that a model's field can have: texts, flags, integers, numbers, literals,
paragraphs, lists, tables, and models made of fields.  The scalar readers are lenient: a text that
spells a number is taken for it, zero and one are taken for truth values, and bytes for the text
that they encode.
-/

namespace ServiceManual

/-- A number as it was given, an integer or a real. -/
inductive Number
  | integer (value : Int)
  | real (value : Binary64)
  deriving DecidableEq, Repr

/-- A literal value: a text, or a number as it was given. -/
inductive Literal
  | text (value : String)
  | integer (value : Int)
  | real (value : Binary64)
  deriving DecidableEq, Repr

/-- The raw value of a number. -/
def Number.write : Number → Raw
  | .integer value => .scalar (.integer value)
  | .real value => .scalar (.real value)

/-- The integer that a literal is, if it is one. -/
def Literal.integer? : Literal → Option Int
  | .integer value => some value
  | _ => none

/-- The text of a literal. -/
def Literal.toText : Literal → String
  | .text value => value
  | .integer value => toString value
  | .real value => value.text

/-- An integer fits a machine word: it lies between `-2 ^ 63` and `2 ^ 63 - 1`. -/
def fitsWord (value : Int) : Bool :=
  decide (-9223372036854775808 ≤ value) && decide (value ≤ 9223372036854775807)

/-- The step to the value of a key: a position for an integer of machine size or a truth value,
else the text of the key; for a date or a moment, the expression that makes it. -/
def Scalar.step : Scalar → Step
  | .integer value =>
    if fitsWord value then .index value
    else .key (if isWritable value then toString value else "<unprintable int object>")
  | .flag value => .index (if value then 1 else 0)
  | .text value => .key (Text.replaceSurrogates value)
  | .date value => .key value.expression
  | .moment value => .key value.expression
  | other => .key other.toText

namespace Raw

open Checked

variable {α : Type}

/-! ## Scalars -/

/-- The text that bytes encode; it is this problem if they encode none. -/
def decoded (undecodable : Problem) (bytes : List UInt8) : Checked String :=
  match String.fromUTF8? bytes.toByteArray with
  | some text => .valid text
  | none => refuse undecodable

/-- The text in which something may be spelled.  Bytes that encode no text have this problem; a
text without encoding is refused as such. -/
def spelling? (undecodable : Problem) : Raw → Option (Checked String)
  | .scalar (.text value) =>
    some (if Text.hasSurrogate value then refuse .notUnicode else .valid value)
  | .scalar (.bytes value) => some (decoded undecodable value)
  | _ => none

/-- What a value spells, if it can spell something, or else what another reader reads. -/
def readSpelled (undecodable : Problem) (spelled : String → Checked α) (read : Raw → Checked α)
    (value : Raw) : Checked α :=
  match spelling? undecodable value with
  | some text => text.andThen spelled
  | none => read value

/-- A text. -/
def readText : Raw → Checked String
  | .scalar (.text value) => .valid value
  | .scalar (.bytes value) => decoded .notUnicode value
  | _ => refuse .notText

/-- The truth value that a word or digit stands for. -/
def flagOfWord? (word : String) : Option Bool :=
  let lower := String.ofList (word.toList.map Char.toLower)
  if ["0", "off", "f", "false", "n", "no"].contains lower then some false
  else if ["1", "on", "t", "true", "y", "yes"].contains lower then some true
  else none

/-- The truth value that a text spells. -/
def flagOfText (value : String) : Checked Bool :=
  match flagOfWord? value with
  | some flag => .valid flag
  | none => refuse .unreadableFlag

/-- The truth value that a number stands for: zero or one. -/
def flagOfNumber : Raw → Checked Bool
  | .scalar (.flag value) => .valid value
  | .scalar (.integer value) =>
    if value = 0 then .valid false
    else if value = 1 then .valid true
    else if fitsWord value then refuse .unreadableFlag
    else refuse .notFlag
  | .scalar (.real value) =>
    match value.toInt? with
    | some 0 => .valid false
    | some 1 => .valid true
    | _ => refuse .notFlag
  | _ => refuse .notFlag

/-- A truth value: itself, zero or one, or a word for one. -/
def readFlag : Raw → Checked Bool :=
  readSpelled .unreadableFlag flagOfText flagOfNumber

/-- The integer that a real denotes, if it is less than `2 ^ 63` in magnitude. -/
def integerOfReal (value : Binary64) : Checked Int :=
  match value with
  | .finite .. =>
    match value.toInt? with
    | some whole =>
      if whole.natAbs ≤ 9223372036854775807 then .valid whole else refuse .oversizedInteger
    | none => refuse .fractionalInteger
  | _ => refuse .notFinite

/-- The integer that a text spells. -/
def integerOfText (value : String) : Checked Int :=
  match Numeral.integer value.toList with
  | .ok whole => .valid whole
  | .error .oversized => refuse .oversizedInteger
  | .error .unreadable => refuse .unreadableInteger

/-- An integer as it is, from a truth value as zero or one, or from a whole real. -/
def integerOfNumber : Raw → Checked Int
  | .scalar (.integer value) => .valid value
  | .scalar (.flag value) => .valid (if value then 1 else 0)
  | .scalar (.real value) => integerOfReal value
  | _ => refuse .notInteger

/-- An integer: itself, a truth value, a whole real, or a numeral. -/
def readInteger : Raw → Checked Int :=
  readSpelled .unreadableInteger integerOfText integerOfNumber

/-- The real that a text spells. -/
def realOfText (value : String) : Checked Binary64 :=
  match Numeral.decimal? value.toList with
  | some real => .valid real
  | none => refuse .unreadableNumber

/-- A real as it is. -/
def realOfNumber : Raw → Checked Binary64
  | .scalar (.real value) => .valid value
  | _ => refuse .notNumber

/-- A real: itself, or a numeral. -/
def readReal : Raw → Checked Binary64 :=
  readSpelled .unreadableNumber realOfText realOfNumber

/-- A number.  Numbers stay what they are; any other value is tried as an integer and then as a
real, and both attempts are reported if both fail. -/
def readNumber (value : Raw) : Checked Number :=
  match value with
  | .scalar (.integer whole) => .valid (.integer whole)
  | .scalar (.real real) => .valid (.real real)
  | _ =>
    match readInteger value, readReal value with
    | .valid whole, _ => .valid (.integer whole)
    | _, .valid real => .valid (.real real)
    | asInteger, asReal =>
      (both (asInteger.within (.key "int")) (asReal.within (.key "float"))).map
        fun pair => .integer pair.1

/-- A literal is neither a text nor an integer nor a real, for these reasons. -/
def refuseLiteral (asText asInteger asReal : Problem) : Checked Literal :=
  .invalid [⟨[.key "str"], asText⟩, ⟨[.key "int"], asInteger⟩, ⟨[.key "float"], asReal⟩]

/-- A literal: a text or a number as given, or a truth value as zero or one. -/
def readLiteral : Raw → Checked Literal
  | .scalar (.text value) => .valid (.text value)
  | .scalar (.bytes value) =>
    match String.fromUTF8? value.toByteArray with
    | some text => .valid (.text text)
    | none => refuseLiteral .notUnicode .unreadableInteger .unreadableNumber
  | .scalar (.integer value) => .valid (.integer value)
  | .scalar (.real value) => .valid (.real value)
  | .scalar (.flag value) => .valid (.integer (if value then 1 else 0))
  | _ => refuseLiteral .notText .notInteger .notNumber

/-- Null, or what another reader reads. -/
def readNullable (read : Raw → Checked α) : Raw → Checked (Option α)
  | .scalar .null => .valid none
  | value => some <$> read value

/-! ## Lists and tables -/

/-- The items of a list, located from this position on. -/
def readItems (read : Raw → Checked α) : Nat → List Raw → Checked (List α)
  | _, [] => .valid []
  | position, item :: rest =>
    List.cons <$> (read item).within (.index position) <*> readItems read (position + 1) rest

/-- A list; a set counts as the list of its members. -/
def readList (read : Raw → Checked α) : Raw → Checked (List α)
  | .list items => readItems read 0 items
  | .set members => readItems read 0 (members.map .scalar)
  | _ => refuse .notList

/-- Paragraphs: none for null, one for a text, else a list of texts. -/
def readParagraphs : Raw → Checked (List String)
  | .scalar .null => .valid []
  | .scalar (.text value) => .valid [value]
  | value => readList readText value

/-- The key of a table, which has to be a text. -/
def readKey (key : Scalar) : Checked String :=
  ((readText (.scalar key)).within (.key "[key]")).within key.step

/-- The entries of a table.  What is wrong with a key comes before what is wrong with its
value. -/
def readEntries (read : Raw → Checked α) : List (Scalar × Raw) → Checked (List (String × α))
  | [] => .valid []
  | (key, value) :: rest =>
    (fun name content more => (name, content) :: more) <$> readKey key <*>
      (read value).within key.step <*> readEntries read rest

/-- A table: a mapping from texts.  Different keys can spell one text, a text and the bytes that
encode it; then the value of the last one stays, in the place of the first. -/
def readTable (read : Raw → Checked α) : Raw → Checked (List (String × α))
  | .mapping entries => assigned (· == ·) <$> readEntries read entries
  | _ => refuse .notMapping

/-! ## Models -/

/-- A model of this name, from the fields of a mapping. -/
def readModel (name : String) (read : List (Scalar × Raw) → Checked α) : Raw → Checked α
  | .mapping fields => read fields
  | _ => refuse (.notModel name)

/-- A field that has to be there. -/
def requiredField (name : String) (read : Raw → Checked α) (fields : List (Scalar × Raw)) :
    Checked α :=
  match field? name fields with
  | some value => (read value).within (.key name)
  | none => (refuse .missing).within (.key name)

/-- A field that may be left out. -/
def optionalField (name : String) (absent : α) (read : Raw → Checked α)
    (fields : List (Scalar × Raw)) : Checked α :=
  match field? name fields with
  | some value => (read value).within (.key name)
  | none => .valid absent

end Raw

end ServiceManual
