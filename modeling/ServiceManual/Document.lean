import ServiceManual.Document.Block
import ServiceManual.Reach

/-!
# The document of an interface

A document has a title, the paragraphs that describe the interface, a table of contents, and up to
three chapters: the methods, the types and the enums.  A chapter has a section for each of its
things and is left out when it would be empty.  The table of contents is made from the chapters,
so it lists exactly their sections, in their order.

Methods are ordered by name, parameters too; types and enums by display name, those with one
display name by key.  Properties, members and rules stay in the order of the description.
-/

namespace ServiceManual

/-- The part of a document about one method, type or enum. -/
structure Section where
  heading : String
  body : List Block

/-- Sections of one kind. -/
structure Chapter where
  title : String
  sections : List Section

/-- A document. -/
structure Document where
  banner : Option (List String)
  title : String
  description : List String
  chapters : List Chapter

/-! ## Order -/

/-- Sort by a text, keeping the order of those with the same one. -/
def sortByText {α : Type} (text : α → String) (items : List α) : List α :=
  items.mergeSort fun a b => decide (text a ≤ text b)

/-! ## Sections -/

namespace Section

/-- The bullet of a parameter or property. -/
def bullet (service : Service) (member : Member) : Bullet :=
  .member member.displayName (service.expand member.value) member.required member.description
    (member.rules.filterMap Rule.sentence?)

/-- A block, unless it would have no items. -/
def bulletList (items : List Bullet) : List Block :=
  if items.isEmpty then [] else [.bullets items]

/-- The section of a method. -/
def ofMethod (service : Service) (method : Method) : Section :=
  let parameters := sortByText Member.name method.parameters
  { heading := method.displayName
    body :=
      .signature method.displayName
          (parameters.map fun parameter => (parameter.displayName, parameter.required)) ::
        bulletList (parameters.map (bullet service)) ++
        (method.returns.map fun returns => Block.returns (service.expand returns.value)).toList ++
        method.description.map Block.paragraph }

/-- The blocks on the keys and values of a dictionary type. -/
def mapBlocks (service : Service) (map : MapProperties) : List Block :=
  [.heading 4 "Map Properties",
    .bullets [.side "Keys" (service.expand map.key), .side "Values" (service.expand map.value)]]

/-- The section of a type. -/
def ofType (service : Service) (type : ComplexType) : Section :=
  let name := entityDisplayName type.name
  { heading := name
    body :=
      .code name :: type.description.map Block.paragraph ++
        bulletList (type.properties.map (bullet service)) ++
        (type.mapProperties.map (mapBlocks service)).getD [] }

/-- A text that is not empty. -/
def nonempty? (text : Option String) : Option String :=
  text.filter fun s => !s.isEmpty

/-- The bullet of a value of an enum. -/
def valueBullet (enum : EnumType) (value : Literal) : Bullet :=
  .value value.toText (nonempty? (enum.descriptionOf? value.toText))

/-- The section of an enum. -/
def ofEnum (enum : EnumType) : Section :=
  let name := entityDisplayName enum.name
  { heading := name
    body :=
      .code name :: ((nonempty? enum.description?).map Block.paragraph).toList ++
        bulletList (enum.members.map (valueBullet enum)) }

/-- The blocks of a section. -/
def blocks (part : Section) : List Block :=
  .heading 3 part.heading :: part.body

end Section

/-! ## Chapters -/

namespace Chapter

/-- The methods of an interface. -/
def ofMethods (service : Service) (methods : List Method) : Chapter :=
  ⟨"Methods", (sortByText Method.name methods).map (Section.ofMethod service)⟩

/-- The types that an interface reaches. -/
def ofTypes (service : Service) (types : List ComplexType) : Chapter :=
  ⟨"Types", (sortByText (fun type => entityDisplayName type.name) types).map
    (Section.ofType service)⟩

/-- The enums that an interface reaches. -/
def ofEnums (enums : List EnumType) : Chapter :=
  ⟨"Enums", (sortByText (fun enum => entityDisplayName enum.name) enums).map Section.ofEnum⟩

/-- The headings of the sections. -/
def headings (chapter : Chapter) : List String :=
  chapter.sections.map Section.heading

/-- The blocks of a chapter. -/
def blocks (chapter : Chapter) : List Block :=
  .heading 2 chapter.title :: chapter.sections.flatMap Section.blocks

end Chapter

namespace Document

/-- The document of an interface that reaches this, under a banner or none. -/
def ofInterface (service : Service) (banner : Option (List String)) (interface : Interface)
    (reach : Reach) : Document :=
  { banner
    title := Naming.title interface.displayName
    description := interface.description
    chapters :=
      [Chapter.ofMethods service interface.methods,
        Chapter.ofTypes service (reach.types.map Prod.snd),
        Chapter.ofEnums (reach.enums.map Prod.snd)].filter
          fun chapter => !chapter.sections.isEmpty }

/-- The table of contents. -/
def contents (document : Document) : Block :=
  .contents (document.chapters.map fun chapter => (chapter.title, chapter.headings))

/-- The blocks of a document. -/
def blocks (document : Document) : List Block :=
  (document.banner.map Block.banner).toList ++
    .heading 1 document.title :: document.description.map Block.paragraph ++
    document.contents :: document.chapters.flatMap Chapter.blocks

/-- The lines of a document. -/
def lines (document : Document) : List String :=
  document.blocks.flatMap fun block => block.lines ++ [""]

/-- The text of a document; its last line is ended too. -/
def text (document : Document) : String :=
  "\n".intercalate document.lines ++ "\n"

end Document

end ServiceManual
