import ServiceManual.Calendar
import ServiceManual.Number.Shortest
import ServiceManual.Text.Quoted

/-!
# Raw documents

What a service description or a settings file says before anything is known about its meaning:
scalars, lists, and mappings whose keys are scalars.  A mapping is the list of its entries in the
order in which their keys first occurred.  `Raw.insert` keeps one entry per key: a key that is
met again keeps its place and its first spelling and takes the new value.  Keys are compared as
values, so `1`, `1.0` and `true` are one key.

Two more shapes are rare: a set of scalars, and a pair of values as an item of a list.
-/

namespace ServiceManual

/-- A value without parts. -/
inductive Scalar
  | null
  | flag (value : Bool)
  | integer (value : Int)
  | real (value : Binary64)
  | text (value : String)
  | bytes (value : List UInt8)
  | date (value : Date)
  | moment (value : Moment)
  deriving DecidableEq, Repr

/-- A value of a raw document. -/
inductive Raw
  | scalar (value : Scalar)
  | list (items : List Raw)
  | mapping (entries : List (Scalar × Raw))
  | set (members : List Scalar)
  | pair (first second : Raw)

/-- An integer can be written out: it has at most 4300 digits.  Its length in bits settles that,
except for the length of the bound itself. -/
def isWritable (value : Int) : Bool :=
  value.natAbs.log2 < 14284 || value.natAbs < Nat.pow 10 4300

namespace Scalar

/-- The text of a scalar. -/
def toText : Scalar → String
  | .null => "None"
  | .flag true => "True"
  | .flag false => "False"
  | .integer value => toString value
  | .real value => value.text
  | .text value => value
  | .bytes value => Text.quotedBytes value
  | .date value => value.text
  | .moment value => value.text

/-- Has a scalar a text?  All have but the integers that are too long to be written out. -/
def hasText : Scalar → Bool
  | .integer value => isWritable value
  | _ => true

/-- A scalar as a part of a larger value in print: texts are quoted, and dates and moments are
expressions that make them. -/
def expression : Scalar → String
  | .text value => Text.quoted value
  | .date value => value.expression
  | .moment value => value.expression
  | other => other.toText

/-- The value by which a key is compared: truth values and whole numbers count as integers. -/
def asKey : Scalar → Scalar
  | .flag value => .integer (if value then 1 else 0)
  | .real value =>
    match value.toInt? with
    | some whole => .integer whole
    | none => .real value
  | other => other

/-- Two scalars are one key when they are equal as values. -/
def sameKey (a b : Scalar) : Bool :=
  match a, b with
  | .moment first, .moment second => first.isSame second
  | _, _ => a.asKey == b.asKey

/-- Every text is one key with itself and with no other scalar. -/
theorem sameKey_text (s t : String) : sameKey (.text s) (.text t) = (s == t) := by
  rw [Bool.eq_iff_iff]
  simp [sameKey, asKey]

/-- Null, false, zero and the empty text are empty scalars, and no bytes. -/
def isEmpty : Scalar → Bool
  | .null => true
  | .flag value => !value
  | .integer value => value == 0
  | .real value => value.isZero
  | .text value => value.isEmpty
  | .bytes value => value.isEmpty
  | .date _ => false
  | .moment _ => false

end Scalar

namespace Raw

/-- A raw null. -/
abbrev null : Raw := .scalar .null

/-- A raw text. -/
abbrev text (value : String) : Raw := .scalar (.text value)

/-- Null, false, zero and everything without contents. -/
def isEmpty : Raw → Bool
  | .scalar value => value.isEmpty
  | .list items => items.isEmpty
  | .mapping entries => entries.isEmpty
  | .set members => members.isEmpty
  | .pair _ _ => false

mutual

/-- Can everything in a value be written out? -/
def isWritable : Raw → Bool
  | .scalar value => value.hasText
  | .list items => areWritable items
  | .mapping entries => areWritableEntries entries
  | .set members => members.all Scalar.hasText
  | .pair first second => first.isWritable && second.isWritable

/-- Can everything in these values be written out? -/
def areWritable : List Raw → Bool
  | [] => true
  | item :: rest => item.isWritable && areWritable rest

/-- Can everything in these entries be written out? -/
def areWritableEntries : List (Scalar × Raw) → Bool
  | [] => true
  | (key, value) :: rest => key.hasText && value.isWritable && areWritableEntries rest

end

mutual

/-- A value in print as a part of a larger one. -/
def expression : Raw → String
  | .scalar value => value.expression
  | .list items => "[" ++ ", ".intercalate (expressions items) ++ "]"
  | .mapping entries => "\x7b" ++ ", ".intercalate (entryExpressions entries) ++ "\x7d"
  | .set members =>
    if members.isEmpty then "set()"
    else "\x7b" ++ ", ".intercalate (members.map Scalar.expression) ++ "\x7d"
  | .pair first second => "(" ++ first.expression ++ ", " ++ second.expression ++ ")"

/-- Values in print. -/
def expressions : List Raw → List String
  | [] => []
  | item :: rest => item.expression :: expressions rest

/-- Entries in print. -/
def entryExpressions : List (Scalar × Raw) → List String
  | [] => []
  | (key, value) :: rest =>
    (key.expression ++ ": " ++ value.expression) :: entryExpressions rest

end

/-- A value in print.  A scalar stands for itself. -/
def toText : Raw → String
  | .scalar value => value.toText
  | other => other.expression

/-- Set the value of a key: in its place if a key that counts as the same is there, else at the
end. -/
def insertBy {κ α : Type} (same : κ → κ → Bool) (key : κ) (value : α) :
    List (κ × α) → List (κ × α)
  | [] => [(key, value)]
  | (k, v) :: rest =>
    if same k key then (k, value) :: rest else (k, v) :: insertBy same key value rest

/-- The entries that a sequence of assignments leaves. -/
def assigned {κ α : Type} (same : κ → κ → Bool) (assignments : List (κ × α)) : List (κ × α) :=
  assignments.foldl (fun entries entry => insertBy same entry.1 entry.2 entries) []

/-- Set the value of a key of a mapping. -/
def insert {α : Type} (key : Scalar) (value : α) : List (Scalar × α) → List (Scalar × α) :=
  insertBy Scalar.sameKey key value

/-- The entries of a mapping that is given as a sequence of assignments. -/
def ofAssignments {α : Type} (assignments : List (Scalar × α)) : List (Scalar × α) :=
  assigned Scalar.sameKey assignments

/-- The value of the entry whose key is this text. -/
def field? {α : Type} (name : String) : List (Scalar × α) → Option α
  | [] => none
  | (k, v) :: rest => if k = .text name then some v else field? name rest

/-- The entries other than those whose key is this text. -/
def without {α : Type} (name : String) (entries : List (Scalar × α)) : List (Scalar × α) :=
  entries.filter fun entry => entry.1 != .text name

/-- A mapping with texts as keys. -/
def ofFields (fields : List (String × Raw)) : Raw :=
  .mapping (fields.map fun field => (.text field.1, field.2))

end Raw

/-! ## Kinds of values -/

/-- The kind of a raw value, as far as a complaint about it tells kinds apart. -/
inductive Kind
  | null
  | flag
  | integer
  | real
  | text
  | bytes
  | date
  | moment
  | list
  | mapping
  | set
  | pair
  deriving DecidableEq, Repr

/-- The kind of a scalar. -/
def Scalar.kind : Scalar → Kind
  | .null => .null
  | .flag _ => .flag
  | .integer _ => .integer
  | .real _ => .real
  | .text _ => .text
  | .bytes _ => .bytes
  | .date _ => .date
  | .moment _ => .moment

/-- The kind of a raw value. -/
def Raw.kind : Raw → Kind
  | .scalar value => value.kind
  | .list _ => .list
  | .mapping _ => .mapping
  | .set _ => .set
  | .pair _ _ => .pair

/-- The word for a kind in a complaint. -/
def Kind.word : Kind → String
  | .null => "NoneType"
  | .flag => "bool"
  | .integer => "int"
  | .real => "float"
  | .text => "str"
  | .bytes => "bytes"
  | .date => "datetime.date"
  | .moment => "datetime.datetime"
  | .list => "list"
  | .mapping => "dict"
  | .set => "set"
  | .pair => "tuple"

end ServiceManual
