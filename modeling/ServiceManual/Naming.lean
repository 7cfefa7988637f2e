import ServiceManual.Service
import ServiceManual.Words

/-!
# Display names

The names under which the things of a service appear in its documents, the anchors of headings,
and the place of an interface's document.
-/

namespace ServiceManual

namespace Naming

/-- The words of a name. -/
def words (name : String) : List String :=
  (Words.split name.toList).map String.ofList

/-- A name with all words capitalized. -/
def pascal (name : String) : String :=
  String.ofList (Words.pascal name.toList)

/-- A name with all words but the first capitalized. -/
def camel (name : String) : String :=
  String.ofList (Words.camel name.toList)

/-- A name in small letters with hyphens between the words. -/
def kebab (name : String) : String :=
  String.ofList (Words.kebab name.toList)

/-- A name with capitalized words and spaces between them. -/
def title (name : String) : String :=
  String.ofList (Words.title name.toList)

/-- The target of a link to the heading with this text: the heading in small letters with hyphens
for spaces. -/
def anchor (heading : String) : String :=
  String.ofList ('#' :: (Text.lowerAfter [] heading.toList).map fun c => if c = ' ' then '-' else c)

end Naming

/-- The display name of an interface. -/
def Interface.displayName (interface : Interface) : String :=
  Naming.pascal (interface.name ++ " service")

/-- The display name of a method. -/
def Method.displayName (method : Method) : String :=
  Naming.camel method.name

/-- The display name of a parameter or property. -/
def Member.displayName (member : Member) : String :=
  Naming.camel member.name

/-- The display name of a type, an enum or a union. -/
def entityDisplayName (name : String) : String :=
  Naming.pascal name

/-- The display name of a type that is referred to, leaving out that it is an array. -/
def TypeReference.scalarName (ref : TypeReference) : String :=
  match ref.kind with
  | .complex => entityDisplayName ref.typeName
  | .primitive =>
    match Primitive.ofWord? ref.typeName with
    | some kind => kind.displayName
    | none => ref.typeName

/-- What marks an array behind the display name of its items. -/
def TypeReference.arraySuffix (ref : TypeReference) : String :=
  if ref.isArray then "[]" else ""

/-- The display name of a type that is referred to. -/
def TypeReference.displayName (ref : TypeReference) : String :=
  ref.scalarName ++ ref.arraySuffix

/-- The segments of the path of an interface's document, for a major version of the service. -/
def Interface.documentPath (interface : Interface) (majorVersion : Int) : List String :=
  ["v" ++ toString majorVersion, Naming.kebab interface.displayName ++ ".md"]

end ServiceManual
