import Mathlib.Data.List.Induction
import ServiceManual.Proofs.Document.Contents

/-!
# Empty lines

A document is written from top to bottom, and the empty lines are written with the pieces: above the
chapters each piece has one behind it, in a section each piece that can be missing has one in front
of it, and a section ends with one (`Section.writtenMethod`, `Section.writtenType`,
`Section.writtenEnum`).  Whatever is missing, this comes to the same as one empty line behind every
block (`Document.written_eq_lines`), because an empty line in front of all pieces but the first and
one at the end are one behind each piece (`flatMap_lines_cons`).

So no two blocks run together: above every block is an empty line, unless the block begins the
document, and below it is another one (`Document.blocks_stand_apart`).
-/

namespace ServiceManual

/-! ## Written from top to bottom -/

namespace Section

/-- An empty line and the bullets, if there are any. -/
def writtenBullets (items : List Bullet) : List String :=
  if items.isEmpty then [] else "" :: items.flatMap Bullet.lines

/-- Each paragraph behind an empty line. -/
def writtenParagraphs (texts : List String) : List String :=
  texts.flatMap fun text => ["", text]

/-- The section of a method. -/
def writtenMethod (service : Service) (method : Method) : List String :=
  let parameters := sortByText Member.name method.parameters
  ["### " ++ method.displayName, "",
      Bullet.quoted (Block.signatureText method.displayName
        (parameters.map fun parameter => (parameter.displayName, parameter.required)))] ++
    writtenBullets (parameters.map (bullet service)) ++
    (match method.returns with
      | some returns => ["", "Returns: " ++ (service.expand returns.value).text]
      | none => []) ++
    writtenParagraphs method.description ++ [""]

/-- The section of a type. -/
def writtenType (service : Service) (type : ComplexType) : List String :=
  let name := entityDisplayName type.name
  ["### " ++ name, "", Bullet.quoted name] ++ writtenParagraphs type.description ++
    writtenBullets (type.properties.map (bullet service)) ++
    (match type.mapProperties with
      | some map => ["", "#### Map Properties", "", "- Keys: " ++ (service.expand map.key).text,
          "- Values: " ++ (service.expand map.value).text]
      | none => []) ++ [""]

/-- The section of an enum. -/
def writtenEnum (enum : EnumType) : List String :=
  let name := entityDisplayName enum.name
  ["### " ++ name, "", Bullet.quoted name] ++
    writtenParagraphs (nonempty? enum.description?).toList ++
    writtenBullets (enum.members.map (valueBullet enum)) ++ [""]

end Section

/-- A chapter, if it has sections. -/
def Chapter.written (title : String) (sections : List (List String)) : List String :=
  if sections.isEmpty then [] else ["## " ++ title, ""] ++ sections.flatten

/-- A document. -/
def Document.written (service : Service) (banner : Option (List String)) (interface : Interface)
    (reach : Reach) : List String :=
  let methods := sortByText Method.name interface.methods
  let types := sortByText (fun type => entityDisplayName type.name) (reach.types.map Prod.snd)
  let enums := sortByText (fun enum => entityDisplayName enum.name) (reach.enums.map Prod.snd)
  (match banner with
    | some lines => "<!--" :: lines ++ ["-->", ""]
    | none => []) ++
    ["# " ++ Naming.title interface.displayName, ""] ++
    interface.description.flatMap (fun text => [text, ""]) ++
    (Section.entries "Methods" (methods.map (Section.ofMethod service)) ++
      Section.entries "Types" (types.map (Section.ofType service)) ++
      Section.entries "Enums" (enums.map Section.ofEnum)) ++ [""] ++
    Chapter.written "Methods" (methods.map (Section.writtenMethod service)) ++
    Chapter.written "Types" (types.map (Section.writtenType service)) ++
    Chapter.written "Enums" (enums.map Section.writtenEnum)

/-! ## In front and behind -/

/-- An empty line behind each block is one in front of each but the first, and one at the end. -/
theorem flatMap_lines_cons (first : Block) (rest : List Block) :
    ((first :: rest).flatMap fun block => block.lines ++ [""]) =
      first.lines ++ (rest.flatMap fun block => "" :: block.lines) ++ [""] := by
  induction rest generalizing first with
  | nil => simp
  | cons next rest ih =>
      rw [List.flatMap_cons, ih next]
      simp

namespace Section

variable {service : Service}

theorem lines_eq (part : Section) : part.lines =
    ("### " ++ part.heading) :: (part.body.flatMap fun block => "" :: block.lines) ++ [""] := by
  rw [← flatMap_blocks, blocks, flatMap_lines_cons, lines_heading_three]
  rfl

theorem flatMap_bulletList (items : List Bullet) :
    ((bulletList items).flatMap fun block => "" :: block.lines) = writtenBullets items := by
  cases items with
  | nil => rfl
  | cons item rest => simp [bulletList, writtenBullets, Block.lines]

theorem flatMap_paragraph (texts : List String) :
    ((texts.map Block.paragraph).flatMap fun block => "" :: block.lines) =
      writtenParagraphs texts := by
  rw [List.flatMap_map]
  rfl

theorem writtenMethod_eq (method : Method) :
    writtenMethod service method = (ofMethod service method).lines := by
  rw [lines_eq, ofMethod]
  simp only [List.cons_append, List.flatMap_cons, List.flatMap_append, flatMap_bulletList,
    flatMap_paragraph]
  cases hreturns : method.returns <;> simp [writtenMethod, hreturns, Block.lines]

theorem writtenType_eq (type : ComplexType) :
    writtenType service type = (ofType service type).lines := by
  rw [lines_eq, ofType]
  simp only [List.cons_append, List.flatMap_cons, List.flatMap_append, flatMap_bulletList,
    flatMap_paragraph]
  cases hmap : type.mapProperties <;>
    simp [writtenType, hmap, mapBlocks, Block.lines, Bullet.lines]

theorem writtenEnum_eq (enum : EnumType) : writtenEnum enum = (ofEnum enum).lines := by
  rw [lines_eq, ofEnum]
  simp only [List.cons_append, List.flatMap_cons, List.flatMap_append, flatMap_bulletList]
  cases hdescription : nonempty? enum.description? <;>
    simp [writtenEnum, hdescription, writtenParagraphs, Block.lines]

end Section

theorem Chapter.written_map {α : Type} {title : String} {items : List α} {write : α → List String}
    {part : α → Section} (h : ∀ item, write item = (part item).lines) :
    written title (items.map write) = Section.chapterLines title (items.map part) := by
  obtain rfl : write = fun item => (part item).lines := funext h
  cases items with
  | nil => rfl
  | cons item rest => simp [written, Section.chapterLines, List.flatMap_def, Function.comp_def]

namespace Document

variable {service : Service} {banner : Option (List String)} {interface : Interface}
  {reach : Reach}

theorem frontLines_eq : (ofInterface service banner interface reach).frontLines =
    (match banner with
      | some lines => "<!--" :: lines ++ ["-->", ""]
      | none => []) ++
      ["# " ++ Naming.title interface.displayName, ""] ++
      interface.description.flatMap fun text => [text, ""] := by
  rw [frontLines, ofInterface]
  cases banner <;> simp [List.flatMap_map, Block.lines]

/-- Written from top to bottom the document has one empty line behind each block. -/
theorem written_eq_lines : written service banner interface reach =
    (ofInterface service banner interface reach).lines := by
  have hchapters : (ofInterface service banner interface reach).chapters = Chapter.nonempty
      [Chapter.ofMethods service interface.methods,
        Chapter.ofTypes service (reach.types.map Prod.snd),
        Chapter.ofEnums (reach.enums.map Prod.snd)] := rfl
  rw [lines_of_chapters hchapters, frontLines_eq]
  simp only [written, Chapter.ofMethods, Chapter.ofTypes, Chapter.ofEnums, List.flatMap_cons,
    List.flatMap_nil, List.append_nil]
  rw [Chapter.written_map Section.writtenMethod_eq, Chapter.written_map Section.writtenType_eq,
    Chapter.written_map Section.writtenEnum_eq]
  simp only [List.append_assoc, List.cons_append, List.nil_append]

end Document

/-! ## Blocks stand apart -/

theorem Bullet.lines_ne_nil (item : Bullet) : item.lines ≠ [] := by
  cases item <;> exact List.cons_ne_nil _ _

namespace Section

variable {service : Service} {block : Block}

theorem lines_ne_nil_of_mem_bulletList {items : List Bullet} (h : block ∈ bulletList items) :
    block.lines ≠ [] := by
  cases items with
  | nil => cases h
  | cons item rest =>
      obtain rfl := List.mem_singleton.mp h
      simp [Block.lines, Bullet.lines_ne_nil]

theorem lines_ne_nil_of_mem_mapBlocks {map : MapProperties} (h : block ∈ mapBlocks service map) :
    block.lines ≠ [] := by
  simp only [mapBlocks, List.mem_cons, List.not_mem_nil, or_false] at h
  rcases h with rfl | rfl <;> exact List.cons_ne_nil _ _

theorem lines_ne_nil_of_mem_ofMethod {method : Method}
    (h : block ∈ (ofMethod service method).body) : block.lines ≠ [] := by
  simp only [ofMethod, List.mem_append, List.mem_cons, List.mem_map, Option.mem_toList,
    Option.map_eq_some_iff] at h
  rcases h with ((rfl | hbullets) | ⟨returns, -, rfl⟩) | ⟨text, -, rfl⟩
  · exact List.cons_ne_nil _ _
  · exact lines_ne_nil_of_mem_bulletList hbullets
  · exact List.cons_ne_nil _ _
  · exact List.cons_ne_nil _ _

theorem lines_ne_nil_of_mem_ofType {type : ComplexType} (h : block ∈ (ofType service type).body) :
    block.lines ≠ [] := by
  simp only [ofType, List.mem_append, List.mem_cons, List.mem_map] at h
  rcases h with ((rfl | ⟨text, -, rfl⟩) | hbullets) | hmap
  · exact List.cons_ne_nil _ _
  · exact List.cons_ne_nil _ _
  · exact lines_ne_nil_of_mem_bulletList hbullets
  · cases hproperties : type.mapProperties with
    | none => simp [hproperties] at hmap
    | some map => exact lines_ne_nil_of_mem_mapBlocks (by simpa [hproperties] using hmap)

theorem lines_ne_nil_of_mem_ofEnum {enum : EnumType} (h : block ∈ (ofEnum enum).body) :
    block.lines ≠ [] := by
  simp only [ofEnum, List.mem_append, List.mem_cons, Option.mem_toList,
    Option.map_eq_some_iff] at h
  rcases h with (rfl | ⟨text, -, rfl⟩) | hbullets
  · exact List.cons_ne_nil _ _
  · exact List.cons_ne_nil _ _
  · exact lines_ne_nil_of_mem_bulletList hbullets

end Section

namespace Document

variable {service : Service} {banner : Option (List String)} {interface : Interface}
  {reach : Reach} {block : Block}

theorem lines_contents_eq_nil_iff {document : Document} :
    document.contents.lines = [] ↔ document.chapters = [] := by
  cases hchapters : document.chapters <;> simp [contents, Block.lines, hchapters]

/-- Only the table of contents can be empty, and it is where there are no chapters. -/
theorem lines_eq_nil_iff (hblock : block ∈ (ofInterface service banner interface reach).blocks) :
    block.lines = [] ↔ block = (ofInterface service banner interface reach).contents ∧
      (ofInterface service banner interface reach).chapters = [] := by
  refine ⟨fun hempty => ?_, fun ⟨hcontents, hchapters⟩ =>
    hcontents ▸ lines_contents_eq_nil_iff.mpr hchapters⟩
  -- Every other block begins with a line of its own.
  rcases mem_blocks_iff.mp hblock with ⟨lines, -, rfl⟩ | rfl | ⟨text, -, rfl⟩ | rfl |
    ⟨chapter, -, rfl⟩ | ⟨part, hpart, hblock⟩
  · exact absurd hempty (List.cons_ne_nil _ _)
  · exact absurd hempty (List.cons_ne_nil _ _)
  · exact absurd hempty (List.cons_ne_nil _ _)
  · exact ⟨rfl, lines_contents_eq_nil_iff.mp hempty⟩
  · exact absurd hempty (List.cons_ne_nil _ _)
  · rcases List.mem_cons.mp hblock with rfl | hbody
    · exact absurd hempty (List.cons_ne_nil _ _)
    · rcases mem_sections_ofInterface_iff.mp hpart with
        ⟨method, -, rfl⟩ | ⟨entry, -, rfl⟩ | ⟨entry, -, rfl⟩
      · exact absurd hempty (Section.lines_ne_nil_of_mem_ofMethod hbody)
      · exact absurd hempty (Section.lines_ne_nil_of_mem_ofType hbody)
      · exact absurd hempty (Section.lines_ne_nil_of_mem_ofEnum hbody)

/-- These lines stand between others: below an empty line unless they come first, and above an
empty line. -/
structure StandsBetween (lines above shown below : List String) : Prop where
  whole : lines = above ++ shown ++ below
  above : above = [] ∨ above.getLast? = some ""
  below : below.head? = some ""

theorem standsBetween_append (before : List Block) (block : Block) (after : List Block) :
    StandsBetween ((before ++ block :: after).flatMap fun block => block.lines ++ [""])
      (before.flatMap fun block => block.lines ++ [""]) block.lines
      ("" :: after.flatMap fun block => block.lines ++ [""]) := by
  refine ⟨by simp, ?_, rfl⟩
  cases before using List.reverseRecOn with
  | nil => exact .inl rfl
  | append_singleton before last =>
      refine .inr ?_
      rw [List.flatMap_append, List.flatMap_singleton, ← List.append_assoc, List.getLast?_concat]

/-- **Blocks stand apart.**  A document is what is written from top to bottom.  Every block of it
stands below an empty line, unless it is the first one and the document begins with it, and above
an empty line.  No block is empty but a table of contents of no chapters. -/
theorem blocks_stand_apart (service : Service) (banner : Option (List String))
    (interface : Interface) (reach : Reach) :
    let document := ofInterface service banner interface reach
    document.lines = written service banner interface reach ∧
      ∀ place : Fin document.blocks.length,
        (∃ above below, StandsBetween document.lines above document.blocks[place].lines below ∧
          (above = [] ↔ place.val = 0)) ∧
        (document.blocks[place].lines = [] ↔
          document.blocks[place] = document.contents ∧ document.chapters = []) := by
  intro document
  refine ⟨written_eq_lines.symm, fun place => ⟨?_, lines_eq_nil_iff (List.getElem_mem _)⟩⟩
  -- The blocks are those before this one, itself, and those behind it.
  have hblocks : document.blocks.take place ++ document.blocks[place] ::
      document.blocks.drop (place + 1) = document.blocks := by
    rw [Fin.getElem_fin, List.getElem_cons_drop, List.take_append_drop]
  have hstands := standsBetween_append (document.blocks.take place) document.blocks[place]
    (document.blocks.drop (place + 1))
  rw [hblocks] at hstands
  refine ⟨_, _, hstands, ?_⟩
  have hne : document.blocks ≠ [] := List.ne_nil_of_length_pos place.pos
  simp [← List.eq_nil_iff_forall_not_mem, hne]

end Document

end ServiceManual
