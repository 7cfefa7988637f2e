import ServiceManual.Service

/-!
# Writing a service description

From a service back to a raw value: every field under its name, defaults and nulls included, and
tables as mappings.  A rule is its identifier and its operand, a rule of unknown kind its
identifier and all other fields it came with.
-/

namespace ServiceManual

open Raw

/-- A raw truth value. -/
def rawFlag (value : Bool) : Raw := .scalar (.flag value)

/-- A raw integer. -/
def rawInteger (value : Int) : Raw := .scalar (.integer value)

/-- Null for nothing. -/
def rawNullable {α : Type} (write : α → Raw) : Option α → Raw
  | some value => write value
  | none => .null

/-- A list of texts. -/
def rawTexts (texts : List String) : Raw := .list (texts.map Raw.text)

/-- A table as a mapping. -/
def rawTable {α : Type} (write : α → Raw) (table : Table α) : Raw :=
  .ofFields (table.map fun entry => (entry.1, write entry.2))

/-- The raw value of a literal. -/
def Literal.write : Literal → Raw
  | .text value => .text value
  | .integer value => .scalar (.integer value)
  | .real value => .scalar (.real value)

/-- The word for what a reference refers to. -/
def ReferenceKind.word : ReferenceKind → String
  | .primitive => "primitive"
  | .complex => "complex"

/-- The raw value of a reference. -/
def TypeReference.write (ref : TypeReference) : Raw :=
  .ofFields [("kind", .text ref.kind.word), ("type_name", .text ref.typeName),
    ("is_array", rawFlag ref.isArray)]

/-- The raw value of a rule. -/
def Rule.write : Rule → Raw
  | .limit kind bound =>
    .ofFields [("id", .text (RuleKind.limit kind).id), (kind.fieldName, rawInteger bound)]
  | .uniqueItems => .ofFields [("id", .text RuleKind.uniqueItems.id)]
  | .compare comparison operand =>
    .ofFields [("id", .text (RuleKind.compare comparison).id), ("value", operand.write)]
  | .pattern expression =>
    .ofFields [("id", .text RuleKind.pattern.id), ("pattern", .text expression)]
  | .unknown id extra => .mapping ((.text "id", .text id) :: extra)

/-- The raw value of a parameter or property. -/
def Member.write (member : Member) : Raw :=
  .ofFields [("name", .text member.name), ("required", rawFlag member.required),
    ("description", rawTexts member.description),
    ("rules", .list (member.rules.map Rule.write)), ("value", member.value.write)]

/-- The raw value of a return value. -/
def ReturnValue.write (returns : ReturnValue) : Raw :=
  .ofFields [("value", returns.value.write), ("description", rawTexts returns.description)]

/-- The raw value of a method. -/
def Method.write (method : Method) : Raw :=
  .ofFields [("name", .text method.name), ("description", rawTexts method.description),
    ("parameters", .list (method.parameters.map Member.write)),
    ("returns", rawNullable ReturnValue.write method.returns)]

/-- The raw value of an interface. -/
def Interface.write (interface : Interface) : Raw :=
  .ofFields [("name", .text interface.name), ("description", rawTexts interface.description),
    ("methods", .list (interface.methods.map Method.write))]

/-- The raw value of the keys and values of a dictionary type. -/
def MapProperties.write (map : MapProperties) : Raw :=
  .ofFields [("key", map.key.write), ("value", map.value.write)]

/-- The raw value of an object type. -/
def ComplexType.write (type : ComplexType) : Raw :=
  .ofFields [("name", .text type.name), ("description", rawTexts type.description),
    ("properties", .list (type.properties.map Member.write)),
    ("map_properties", rawNullable MapProperties.write type.mapProperties)]

/-- The raw value of a union. -/
def UnionType.write (union : UnionType) : Raw :=
  .ofFields [("name", .text union.name), ("description", rawTexts union.description),
    ("members", .list (union.members.map TypeReference.write))]

/-- The raw value of the documentation of an enum. -/
def EnumDocs.write (docs : EnumDocs) : Raw :=
  .ofFields [("description", rawNullable Raw.text docs.description),
    ("value_descriptions", rawTable Raw.text docs.valueDescriptions)]

/-- The raw value of an enum. -/
def EnumType.write (enum : EnumType) : Raw :=
  .ofFields [("name", .text enum.name), ("members", .list (enum.members.map Literal.write)),
    ("docs", rawNullable EnumDocs.write enum.docs)]

/-- The raw value of a service. -/
def Service.write (service : Service) : Raw :=
  .ofFields [("title", .text service.title), ("major_version", rawInteger service.majorVersion),
    ("source_path", rawNullable Raw.text service.sourcePath),
    ("interfaces", .list (service.interfaces.map Interface.write)),
    ("types", rawTable ComplexType.write service.types),
    ("enums", rawTable EnumType.write service.enums),
    ("unions", rawTable UnionType.write service.unions)]

end ServiceManual
