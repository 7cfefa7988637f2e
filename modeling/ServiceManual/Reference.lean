import ServiceManual.Text.Lowercase

/-!
# References to types

A parameter, a property, a return value or a member of a union refers to its type, either to a
primitive kind or, by name, to an entity of the service.  A reference to an entity does not say
whether it means a type, an enum or a union; that is found out by looking the name up.
-/

namespace ServiceManual

/-- The primitive kinds. -/
inductive Primitive
  | string
  | number
  | integer
  | long
  | float
  | double
  | boolean
  | date
  | dateTime
  | null
  | binary
  | untyped
  deriving DecidableEq, Repr

namespace Primitive

/-- All primitive kinds. -/
def all : List Primitive :=
  [.string, .number, .integer, .long, .float, .double, .boolean, .date, .dateTime, .null,
    .binary, .untyped]

/-- The word for a kind in a service description. -/
def keyword : Primitive → String
  | .string => "string"
  | .number => "number"
  | .integer => "integer"
  | .long => "long"
  | .float => "float"
  | .double => "double"
  | .boolean => "boolean"
  | .date => "date"
  | .dateTime => "date-time"
  | .null => "null"
  | .binary => "binary"
  | .untyped => "untyped"

/-- The kind that a word stands for, in any letter case. -/
def ofWord? (word : String) : Option Primitive :=
  let lower := Text.lowercase word
  all.find? fun kind => kind.keyword == lower

/-- The name of a kind in the documented language. -/
def displayName : Primitive → String
  | .string => "string"
  | .number | .integer | .long | .float | .double => "number"
  | .boolean => "boolean"
  | .date | .dateTime => "Date"
  | .null => "null"
  | .binary => "Blob"
  | .untyped => "unknown"

/-- The page on data structures of the language reference. -/
def dataStructuresUrl : String :=
  "https://developer.mozilla.org/en-US/docs/Web/JavaScript/Data_structures"

/-- Where a kind is described; some kinds have no such page. -/
def url? : Primitive → Option String
  | .string => some (dataStructuresUrl ++ "#string_type")
  | .number | .integer | .long | .float | .double => some (dataStructuresUrl ++ "#number_type")
  | .boolean => some (dataStructuresUrl ++ "#boolean_type")
  | .date | .dateTime => some
      "https://developer.mozilla.org/en-US/docs/Web/JavaScript/Reference/Global_Objects/Date"
  | .null => some (dataStructuresUrl ++ "#null_type")
  | .binary | .untyped => none

end Primitive

/-- What a reference refers to: a primitive kind, or an entity of the service. -/
inductive ReferenceKind
  | primitive
  | complex
  deriving DecidableEq, Repr

/-- A reference to a type, or to an array of it. -/
structure TypeReference where
  kind : ReferenceKind
  typeName : String
  isArray : Bool
  deriving DecidableEq, Repr

namespace TypeReference

/-- Does the reference name a primitive kind? -/
def isPrimitive (ref : TypeReference) : Bool :=
  ref.kind == .primitive

/-- The primitive kind referred to, unless the word is unknown. -/
def primitive? (ref : TypeReference) : Option Primitive :=
  if ref.isPrimitive then Primitive.ofWord? ref.typeName else none

/-- Where the primitive kind referred to is described. -/
def url? (ref : TypeReference) : Option String :=
  ref.primitive?.bind Primitive.url?

end TypeReference

end ServiceManual
