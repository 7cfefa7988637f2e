import ServiceManual.Document
import ServiceManual.Proofs.Reach.Exact

/-!
# The sections of a document

Every block of a document below its table of contents belongs to a section, and every section is
that of a method of the interface, or of a type or an enum that the interface reaches
(`Service.mem_sections_document_iff`).  A type or enum has a section exactly when it stands under
a name reached from the signatures of the interface.
-/

namespace ServiceManual

/-- The types of the parameters and the return values of an interface. -/
def Interface.signatureTypes (interface : Interface) : List TypeReference :=
  interface.parameterTypes ++ interface.returnTypes

/-- The types of the parameters and the return value of a method. -/
def Method.signatureTypes (method : Method) : List TypeReference :=
  method.parameterTypes ++ method.returnTypes

theorem Method.value_mem_signatureTypes {method : Method} {parameter : Member}
    (hparameter : parameter ∈ method.parameters) : parameter.value ∈ method.signatureTypes :=
  List.mem_append_left _ (List.mem_map_of_mem hparameter)

theorem Method.returns_mem_signatureTypes {method : Method} {returns : ReturnValue}
    (hreturns : method.returns = some returns) : returns.value ∈ method.signatureTypes :=
  List.mem_append_right _ (by simp [returnTypes, hreturns])

theorem Interface.signatureTypes_subset {interface : Interface} {method : Method}
    (hmethod : method ∈ interface.methods) : method.signatureTypes ⊆ interface.signatureTypes := by
  intro ref href
  rcases List.mem_append.mp href with href | href
  · exact List.mem_append_left _ (List.mem_flatMap.mpr ⟨method, hmethod, href⟩)
  · exact List.mem_append_right _ (List.mem_flatMap.mpr ⟨method, hmethod, href⟩)

/-- The document of an interface, with what it reaches itself. -/
abbrev Service.document (service : Service) (banner : Option (List String))
    (interface : Interface) : Document :=
  .ofInterface service banner interface (.ofInterface service interface)

/-- The sections of all chapters. -/
def Document.sections (document : Document) : List Section :=
  document.chapters.flatMap Chapter.sections

/-! ## Blocks and sections -/

namespace Document

variable {document : Document} {part : Section} {block : Block}

theorem mem_blocks_iff : block ∈ document.blocks ↔
    (∃ lines, document.banner = some lines ∧ block = .banner lines) ∨
    block = .heading 1 document.title ∨
    (∃ text ∈ document.description, block = .paragraph text) ∨
    block = document.contents ∨
    (∃ chapter ∈ document.chapters, block = .heading 2 chapter.title) ∨
    ∃ part ∈ document.sections, block ∈ part.blocks := by
  simp only [blocks, Chapter.blocks, sections, List.mem_append, List.mem_cons, List.mem_flatMap,
    Option.mem_toList, Option.map_eq_some_iff, List.mem_map]
  grind

/-- The blocks of a section follow each other in the document. -/
theorem isInfix_blocks (hpart : part ∈ document.sections) : part.blocks <:+: document.blocks := by
  obtain ⟨chapter, hchapter, hpart⟩ := List.mem_flatMap.mp hpart
  have hsections : part.blocks <:+: chapter.sections.flatMap Section.blocks :=
    List.infix_of_mem_flatten (List.mem_map_of_mem hpart)
  have hinner : part.blocks <:+: chapter.blocks :=
    hsections.trans (List.suffix_cons _ _).isInfix
  have houter : chapter.blocks <:+: document.chapters.flatMap Chapter.blocks :=
    List.infix_of_mem_flatten (List.mem_map_of_mem hchapter)
  have hend : document.chapters.flatMap Chapter.blocks <:+ document.blocks :=
    (List.suffix_cons _ _).trans (List.suffix_append _ _)
  exact hinner.trans (houter.trans hend.isInfix)

theorem heading_mem_lines (hpart : part ∈ document.sections) :
    "### " ++ part.heading ∈ document.lines := by
  have hblock : .heading 3 part.heading ∈ document.blocks :=
    (isInfix_blocks hpart).subset List.mem_cons_self
  refine List.mem_flatMap.mpr ⟨_, hblock, List.mem_append_left _ ?_⟩
  have hmarks : String.ofList (List.replicate 3 '#') ++ " " = "### " := by decide
  rw [Block.lines, hmarks]
  exact List.mem_singleton_self _

end Document

/-! ## The sections of an interface's document -/

theorem flatMap_sections_filter (chapters : List Chapter) :
    (chapters.filter fun chapter => !chapter.sections.isEmpty).flatMap Chapter.sections =
      chapters.flatMap Chapter.sections := by
  induction chapters with
  | nil => rfl
  | cons chapter rest ih => cases hsections : chapter.sections <;> simp [hsections, ih]

section

variable {service : Service} {banner : Option (List String)} {interface : Interface}
  {reach : Reach} {part : Section} {name : String}

namespace Document

/-- The sections of methods come first, then those of types, then those of enums. -/
theorem sections_ofInterface : (ofInterface service banner interface reach).sections =
    (Chapter.ofMethods service interface.methods).sections ++
      ((Chapter.ofTypes service (reach.types.map Prod.snd)).sections ++
        (Chapter.ofEnums (reach.enums.map Prod.snd)).sections) := by
  unfold sections ofInterface
  rw [flatMap_sections_filter]
  simp only [List.flatMap_cons, List.flatMap_nil, List.append_nil]

theorem mem_sections_ofInterface_iff :
    part ∈ (ofInterface service banner interface reach).sections ↔
      (∃ method ∈ interface.methods, part = .ofMethod service method) ∨
      (∃ entry ∈ reach.types, part = .ofType service entry.2) ∨
      ∃ entry ∈ reach.enums, part = .ofEnum entry.2 := by
  simp only [sections_ofInterface, Chapter.ofMethods, Chapter.ofTypes, Chapter.ofEnums,
    List.mem_append, List.mem_map, (sortByText_perm _ _).mem_iff]
  grind

end Document

namespace Service

theorem sections_document : (service.document banner interface).sections =
    (Chapter.ofMethods service interface.methods).sections ++
      ((Chapter.ofTypes service
        ((Reach.ofInterface service interface).types.map Prod.snd)).sections ++
      (Chapter.ofEnums ((Reach.ofInterface service interface).enums.map Prod.snd)).sections) :=
  Document.sections_ofInterface

/-- There is a section for each method and for each type and enum that the interface reaches, and
there is no other. -/
theorem mem_sections_document_iff : part ∈ (service.document banner interface).sections ↔
    (∃ method ∈ interface.methods, part = .ofMethod service method) ∨
    (∃ entry ∈ (Reach.ofInterface service interface).types, part = .ofType service entry.2) ∨
    ∃ entry ∈ (Reach.ofInterface service interface).enums, part = .ofEnum entry.2 :=
  Document.mem_sections_ofInterface_iff

/-- What the signatures of an interface reach is what either side reaches. -/
theorem reachedFrom_signatureTypes : service.ReachedFrom interface.signatureTypes name ↔
    service.ReachedFrom interface.parameterTypes name ∨
      service.ReachedFrom interface.returnTypes name :=
  reachedFrom_append

theorem ofType_mem_sections {type : ComplexType}
    (hreached : service.ReachedFrom interface.signatureTypes name)
    (htype : service.types.get? name = some type) :
    .ofType service type ∈ (service.document banner interface).sections := by
  have hentry : (name, type) ∈ (Reach.ofInterface service interface).types :=
    ((Reach.complete_ofInterface service interface).lists.types.mem_iff name type).mpr
      ⟨reachedFrom_signatureTypes.mp hreached, htype⟩
  exact mem_sections_document_iff.mpr (.inr (.inl ⟨_, hentry, rfl⟩))

theorem ofEnum_mem_sections {enum : EnumType}
    (hreached : service.ReachedFrom interface.signatureTypes name)
    (henum : service.enum? name = some enum) :
    .ofEnum enum ∈ (service.document banner interface).sections := by
  have hentry : (name, enum) ∈ (Reach.ofInterface service interface).enums :=
    ((Reach.complete_ofInterface service interface).lists.enums.mem_iff name enum).mpr
      ⟨reachedFrom_signatureTypes.mp hreached, henum⟩
  exact mem_sections_document_iff.mpr (.inr (.inr ⟨_, hentry, rfl⟩))

end Service

end

/-! ## A service that refers to itself -/

/-- A reference to the friends of a pet. -/
def friends : TypeReference := ⟨.complex, "Friend", true⟩

/-- A type with a property that leads back to the type, and with labels for its values. -/
def petType : ComplexType :=
  ⟨"Pet", [], [⟨"friends", false, [], [], friends⟩],
    some ⟨⟨.primitive, "string", false⟩, ⟨.complex, "Label", false⟩⟩⟩

/-- A type, a union and an enum that lead to each other; the union also contains itself.  The
labels are not reached, since only the values of a dictionary have them. -/
def petstore : Service where
  title := "Petstore"
  majorVersion := 1
  sourcePath := none
  interfaces := []
  types := [("Pet", petType)]
  enums := [("Kind", ⟨"Kind", [.text "cat"], none⟩), ("Tag", ⟨"Tag", [.text "tame"], none⟩)]
  unions := [("Friend", ⟨"Friend", [],
      [⟨.complex, "Pet", false⟩, ⟨.complex, "Kind", false⟩, ⟨.complex, "Friend", false⟩]⟩),
    ("Label", ⟨"Label", [], [⟨.complex, "Tag", false⟩, ⟨.primitive, "string", false⟩]⟩)]

/-- An interface that returns a pet. -/
def petInterface : Interface where
  name := "pet"
  description := []
  methods := [⟨"getPet", [], [], some ⟨⟨.complex, "Pet", false⟩, []⟩⟩]

example : (petstore.document none petInterface).sections.map Section.heading =
    ["getPet", "Pet", "Kind"] := by cbv

theorem petstore_reaches_pet : petstore.ReachedFrom petInterface.signatureTypes "Pet" :=
  ⟨⟨.complex, "Pet", false⟩, by decide, rfl, .refl⟩

end ServiceManual
