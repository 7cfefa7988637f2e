import ServiceManual.Service

/-!
# Reading a service description

From a raw value to a service.  Beside the plain fields three freedoms of the format are settled
here.  Entities may come as a list or as a mapping from names; either becomes a table, a list
keyed by the items' names, a mapping lending its keys to entities without a name.  The
documentation of an enum may be given under `docs`, or in a list `meta` of key and value pairs,
from which it is lifted.  The keys under which an enum's values are described may be of any
scalar kind and count by their text.
-/

namespace ServiceManual

open Raw Checked

/-! ## References and members -/

/-- The word for what a reference refers to. -/
def ReferenceKind.read : Raw → Checked ReferenceKind
  | .scalar (.text "primitive") => .valid .primitive
  | .scalar (.text "complex") => .valid .complex
  | .scalar (.text word) =>
    refuse (if Text.hasSurrogate word then .notUnicode else .notReferenceKind)
  | _ => refuse .notReferenceKind

/-- A reference to a type. -/
def TypeReference.read : Raw → Checked TypeReference :=
  readModel "TypeReference" fun fields =>
    TypeReference.mk <$> optionalField "kind" .complex ReferenceKind.read fields <*>
      requiredField "type_name" readText fields <*> optionalField "is_array" false readFlag fields

/-- A parameter or property, under the name of the model that it is read as. -/
def Member.read (model : String) : Raw → Checked Member :=
  readModel model fun fields =>
    Member.mk <$> requiredField "name" readText fields <*>
      optionalField "required" false readFlag fields <*>
      optionalField "description" [] readParagraphs fields <*>
      optionalField "rules" [] (readList Rule.read) fields <*>
      requiredField "value" TypeReference.read fields

/-- What a method returns. -/
def ReturnValue.read : Raw → Checked ReturnValue :=
  readModel "ReturnValue" fun fields =>
    ReturnValue.mk <$> requiredField "value" TypeReference.read fields <*>
      optionalField "description" [] readParagraphs fields

/-- A method. -/
def Method.read : Raw → Checked Method :=
  readModel "Method" fun fields =>
    Method.mk <$> requiredField "name" readText fields <*>
      optionalField "description" [] readParagraphs fields <*>
      optionalField "parameters" [] (readList (Member.read "Parameter")) fields <*>
      optionalField "returns" none (readNullable ReturnValue.read) fields

/-- An interface. -/
def Interface.read : Raw → Checked Interface :=
  readModel "Interface" fun fields =>
    Interface.mk <$> requiredField "name" readText fields <*>
      optionalField "description" [] readParagraphs fields <*>
      optionalField "methods" [] (readList Method.read) fields

/-! ## Entities -/

/-- The keys and values of a dictionary type. -/
def MapProperties.read : Raw → Checked MapProperties :=
  readModel "MapProperties" fun fields =>
    MapProperties.mk <$> requiredField "key" TypeReference.read fields <*>
      requiredField "value" TypeReference.read fields

/-- An object type. -/
def ComplexType.read : Raw → Checked ComplexType :=
  readModel "ComplexType" fun fields =>
    ComplexType.mk <$> requiredField "name" readText fields <*>
      optionalField "description" [] readParagraphs fields <*>
      optionalField "properties" [] (readList (Member.read "Property")) fields <*>
      optionalField "map_properties" none (readNullable MapProperties.read) fields

/-- A union. -/
def UnionType.read : Raw → Checked UnionType :=
  readModel "UnionType" fun fields =>
    UnionType.mk <$> requiredField "name" readText fields <*>
      optionalField "description" [] readParagraphs fields <*>
      optionalField "members" [] (readList TypeReference.read) fields

/-- A mapping with the texts of its keys as keys.  Of keys with one text the last one's value
stays, in the place of the first. -/
def keyedByText : Raw → Raw
  | .mapping entries =>
    .mapping (ofAssignments (entries.map fun entry => (.text entry.1.toText, entry.2)))
  | other => other

/-- Has every key of a mapping a text? -/
def hasTextualKeys : Raw → Bool
  | .mapping entries => entries.all fun entry => entry.1.hasText
  | _ => true

/-- The descriptions of values, by the texts of the keys. -/
def readValueDescriptions (value : Raw) : Checked (Table String) :=
  if hasTextualKeys value then readTable readText (keyedByText value) else refuse .unwritableKey

/-- The documentation of an enum. -/
def EnumDocs.read : Raw → Checked EnumDocs :=
  readModel "EnumDocs" fun fields =>
    EnumDocs.mk <$> optionalField "description" none (readNullable readText) fields <*>
      optionalField "value_descriptions" [] readValueDescriptions fields

/-- The key of the metadata entry that describes an enum. -/
def enumDescriptionKey : String := "codegen-enum-description"

/-- The key of the metadata entry that describes the values of an enum. -/
def enumValueDescriptionsKey : String := "codegen-enum-value-descriptions"

/-- The key and value pairs among the items of a metadata list.  A key that is no scalar is a
fault; a pair without key or value has null for it. -/
def metadataPairs : List Raw → Except Fault (List (Scalar × Raw))
  | [] => .ok []
  | .mapping fields :: rest =>
    let value := (field? "value" fields).getD .null
    match (field? "key" fields).getD .null with
    | .scalar key => (metadataPairs rest).map ((key, value) :: ·)
    | other => .error (.notAName other.kind)
  | _ :: rest => metadataPairs rest

/-- The pairs of a metadata value.  A value without contents has none; of other values only a list
can have some, and a scalar other than a text or bytes is a fault. -/
def metadataEntries (value : Raw) : Except Fault (List (Scalar × Raw)) :=
  if value.isEmpty then .ok []
  else match value with
    | .list items => (metadataPairs items).map ofAssignments
    | .scalar (.text _) => .ok []
    | .scalar (.bytes _) => .ok []
    | .scalar other => .error (.notAList other.kind)
    | _ => .ok []

/-- A field that is there and is not null. -/
def given? (name : String) (fields : List (Scalar × Raw)) : Option Raw :=
  match field? name fields with
  | some (.scalar .null) => none
  | other => other

/-- The fields of an enum with the documentation that its metadata holds moved to `docs`, unless
that field is given already.  The metadata itself is dropped. -/
def liftMetadata (fields : List (Scalar × Raw)) : Except Fault (List (Scalar × Raw)) :=
  match field? "meta" fields with
  | none => .ok fields
  | some metadata =>
    let others := without "meta" fields
    match given? "docs" others with
    | some _ => .ok others
    | none =>
      (metadataEntries metadata).map fun entries =>
        let description := given? enumDescriptionKey entries
        let valueDescriptions := given? enumValueDescriptionsKey entries
        if description.isNone && valueDescriptions.isNone then others
        else
          let described := valueDescriptions.getD .null
          Raw.insert (.text "docs") (.ofFields [("description", description.getD .null),
            ("value_descriptions", if described.isEmpty then .mapping [] else described)]) others

/-- An enum. -/
def EnumType.read : Raw → Checked EnumType :=
  readModel "EnumType" fun given =>
    match liftMetadata given with
    | .error fault => .broken fault
    | .ok fields =>
      EnumType.mk <$> requiredField "name" readText fields <*>
        optionalField "members" [] (readList readLiteral) fields <*>
        optionalField "docs" none (readNullable EnumDocs.read) fields

/-! ## Tables of entities -/

/-- The items of a list of entities under their names; an item without a name goes under null. -/
def namedItems : List Raw → Except Fault (List (Scalar × Raw))
  | [] => .ok []
  | .mapping fields :: rest =>
    match (field? "name" fields).getD .null with
    | .scalar name => (namedItems rest).map ((name, .mapping fields) :: ·)
    | other => .error (.notAName other.kind)
  | item :: _ => .error (.nameless item.kind)

/-- An entry of a mapping of entities, the entity taking its key as its name if it has none. -/
def namedByKey : Scalar × Raw → Scalar × Raw
  | (key, .mapping fields) =>
    match field? "name" fields with
    | some _ => (key, .mapping fields)
    | none => (key, .mapping (fields ++ [(.text "name", .scalar key)]))
  | entry => entry

/-- Entities as a mapping from names, whether they come as a list or as a mapping. -/
def keyedByName : Raw → Except Fault Raw
  | .scalar .null => .ok (.mapping [])
  | .list items => (namedItems items).map fun entries => .mapping (ofAssignments entries)
  | .mapping entries => .ok (.mapping (entries.map namedByKey))
  | other => .ok other

/-- A table of entities. -/
def readEntities {α : Type} (read : Raw → Checked α) (value : Raw) : Checked (Table α) :=
  match keyedByName value with
  | .error fault => .broken fault
  | .ok keyed => readTable read keyed

/-- A service. -/
def Service.read : Raw → Checked Service :=
  readModel "Service" fun fields =>
    Service.mk <$> requiredField "title" readText fields <*>
      optionalField "major_version" 1 readInteger fields <*>
      optionalField "source_path" none (readNullable readText) fields <*>
      optionalField "interfaces" [] (readList Interface.read) fields <*>
      optionalField "types" [] (readEntities ComplexType.read) fields <*>
      optionalField "enums" [] (readEntities EnumType.read) fields <*>
      optionalField "unions" [] (readEntities UnionType.read) fields

end ServiceManual
