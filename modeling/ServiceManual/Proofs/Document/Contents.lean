import ServiceManual.Proofs.Document.Sections

/-!
# The table of contents and the sections

A document shows each group of things twice, as an entry of its table of contents and as a chapter.
`Document.lines_eq_groups` says what these lines are, for a document with the closure of any
interface: there is one order of the methods, one of the types and one of the enums, and both the
table of contents and the chapters go through the groups in these orders.

The methods are in the order of their names, and methods with one name in the order of the
description (`IsStableOrder`).  Types and enums are sorted twice, first by key and then by display
name, and what the second sorting keeps of the first one is the order of the keys among those with
one display name (`IsEntryOrder`).

The two are made from the chapters that are left after the empty ones have been dropped.  Dropping
them is the same as giving no lines to a group without sections, so the marker of a group, its
heading and its sections are there together or not at all.
-/

namespace ServiceManual

/-! ## Orders -/

section Orders

variable {α : Type} {text : α → String}

/-- The same items in the order of a text, and in the given order where the text is the same. -/
structure IsStableOrder (text : α → String) (items ordered : List α) : Prop where
  perm : ordered.Perm items
  ascending : ordered.Pairwise fun a b => text a ≤ text b
  stable : ∀ key, ordered.filter (fun item => text item == key) =
    items.filter fun item => text item == key

/-- The same entries in the order of a text, and in that of their keys where the text is the
same. -/
structure IsEntryOrder (text : α → String) (table ordered : Table α) : Prop where
  perm : ordered.Perm table
  ascending : ordered.Pairwise fun a b =>
    text a.2 < text b.2 ∨ (text a.2 = text b.2 ∧ a.1 < b.1)

theorem isStableOrder_sortByText (text : α → String) (items : List α) :
    IsStableOrder text items (sortByText text items) :=
  ⟨sortByText_perm text items, pairwise_sortByText text items, filter_sortByText text items⟩

/-- A table in the order of its keys, sorted by a text, is in the order of both. -/
theorem isEntryOrder_sortByText {table : Table α} (hkeys : table.Pairwise fun a b => a.1 < b.1) :
    IsEntryOrder text table (sortByText (fun entry => text entry.2) table) := by
  have hsorted := isStableOrder_sortByText (fun entry : String × α => text entry.2) table
  refine ⟨hsorted.perm, List.pairwise_iff_forall_sublist.mpr fun {a b} hpair => ?_⟩
  have hle : text a.2 ≤ text b.2 := List.pairwise_iff_forall_sublist.mp hsorted.ascending hpair
  rcases hle.lt_or_eq with hlt | hsame
  · exact .inl hlt
  · refine .inr ⟨hsame, ?_⟩
    -- Both have the text of `b`, and among those that have it sorting changes nothing.
    have hboth : [a, b].filter (fun entry => text entry.2 == text b.2) = [a, b] := by
      simp [hsame]
    have hkept : [a, b].Sublist (table.filter fun entry => text entry.2 == text b.2) := by
      rw [← hsorted.stable, ← hboth]
      exact hpair.filter _
    exact List.pairwise_iff_forall_sublist.mp hkeys (hkept.trans List.filter_sublist)

end Orders

/-! ## Groups of sections -/

namespace Section

/-- The lines of a section: its heading, and its blocks with an empty line behind each. -/
def lines (part : Section) : List String :=
  ("### " ++ part.heading) :: "" :: part.body.flatMap fun block => block.lines ++ [""]

/-- What a group of sections has in a table of contents: its marker, and for each section a link to
the anchor of its heading. -/
def entries (title : String) (parts : List Section) : List String :=
  if parts.isEmpty then []
  else ("- " ++ title) :: parts.map fun part =>
    "  - [" ++ part.heading ++ "](" ++ Naming.anchor part.heading ++ ")"

/-- What a group of sections has below the table of contents: its heading, and the sections. -/
def chapterLines (title : String) (parts : List Section) : List String :=
  if parts.isEmpty then [] else ("## " ++ title) :: "" :: parts.flatMap lines

end Section

/-- The lines of a document above its table of contents. -/
def Document.frontLines (document : Document) : List String :=
  ((document.banner.map Block.banner).toList ++
    .heading 1 document.title :: document.description.map Block.paragraph).flatMap
      fun block => block.lines ++ [""]

theorem lines_heading_two (title : String) : (Block.heading 2 title).lines = ["## " ++ title] := by
  have hmarks : String.ofList (List.replicate 2 '#') ++ " " = "## " := by decide
  rw [Block.lines, hmarks]

theorem lines_heading_three (title : String) :
    (Block.heading 3 title).lines = ["### " ++ title] := by
  have hmarks : String.ofList (List.replicate 3 '#') ++ " " = "### " := by decide
  rw [Block.lines, hmarks]

theorem Section.flatMap_blocks (part : Section) :
    (part.blocks.flatMap fun block => block.lines ++ [""]) = part.lines := by
  rw [Section.blocks, List.flatMap_cons, lines_heading_three]
  rfl

theorem Section.flatMap_flatMap_blocks (parts : List Section) :
    ((parts.flatMap Section.blocks).flatMap fun block => block.lines ++ [""]) =
      parts.flatMap Section.lines := by
  rw [List.flatMap_assoc]
  exact List.flatMap_congr fun part _ => part.flatMap_blocks

namespace Chapter

variable {chapters : List Chapter}

/-- The chapters that have sections. -/
abbrev nonempty (chapters : List Chapter) : List Chapter :=
  chapters.filter fun chapter => !chapter.sections.isEmpty

/-- To leave out a chapter without sections is to give it no lines. -/
theorem flatMap_nonempty (lines : Chapter → List String) :
    (nonempty chapters).flatMap lines =
      chapters.flatMap fun chapter => if chapter.sections.isEmpty then [] else lines chapter := by
  induction chapters with
  | nil => rfl
  | cons chapter rest ih =>
      rw [List.flatMap_cons, ← ih]
      cases hsections : chapter.sections.isEmpty with
      | true => rw [nonempty, List.filter_cons_of_neg (by simp [hsections]), if_pos rfl,
          List.nil_append]
      | false => rw [nonempty, List.filter_cons_of_pos (by simp [hsections]),
          if_neg Bool.false_ne_true, List.flatMap_cons]

theorem headingLink_eq (heading : String) : "  - " ++ Block.headingLink heading =
    "  - [" ++ heading ++ "](" ++ Naming.anchor heading ++ ")" := by
  have hmark : "  - " ++ "[" = "  - [" := by decide
  rw [Block.headingLink, ← hmark]
  simp only [String.append_assoc]

theorem contents_lines_nonempty :
    (Block.contents ((nonempty chapters).map fun chapter =>
        (chapter.title, chapter.headings))).lines =
      chapters.flatMap fun chapter => Section.entries chapter.title chapter.sections := by
  rw [Block.lines, List.flatMap_map, flatMap_nonempty]
  refine List.flatMap_congr fun chapter _ => ?_
  have hlinks : (chapter.headings.map fun heading => "  - " ++ Block.headingLink heading) =
      chapter.sections.map fun part =>
        "  - [" ++ part.heading ++ "](" ++ Naming.anchor part.heading ++ ")" := by
    rw [headings, List.map_map]
    exact List.map_congr_left fun part _ => headingLink_eq part.heading
  rw [hlinks, Section.entries]

theorem flatMap_blocks_nonempty :
    (((nonempty chapters).flatMap Chapter.blocks).flatMap fun block => block.lines ++ [""]) =
      chapters.flatMap fun chapter => Section.chapterLines chapter.title chapter.sections := by
  rw [List.flatMap_assoc, flatMap_nonempty]
  refine List.flatMap_congr fun chapter _ => ?_
  rw [Chapter.blocks, List.flatMap_cons, lines_heading_two, Section.flatMap_flatMap_blocks,
    Section.chapterLines]
  rfl

end Chapter

/-! ## The document -/

/-- The lines of a document of these chapters without the empty ones. -/
theorem Document.lines_of_chapters {document : Document} {chapters : List Chapter}
    (hchapters : document.chapters = Chapter.nonempty chapters) :
    document.lines = document.frontLines ++
      (chapters.flatMap fun chapter => Section.entries chapter.title chapter.sections) ++
        "" :: chapters.flatMap fun chapter =>
          Section.chapterLines chapter.title chapter.sections := by
  have hcontents : document.contents.lines =
      chapters.flatMap fun chapter => Section.entries chapter.title chapter.sections := by
    rw [Document.contents, hchapters, Chapter.contents_lines_nonempty]
  rw [lines, blocks, frontLines, List.flatMap_append, List.flatMap_cons, hcontents, hchapters,
    Chapter.flatMap_blocks_nonempty, ← List.append_assoc, ← List.append_assoc]
  simp only [List.append_assoc, List.singleton_append]

/-- **Contents and sections agree.**  There are orders of the methods of the interface and of the
types and enums of the closure, by name and by display name, in which both the table of contents
and the chapters go through them.  A document has the lines above its table of contents, the
entries of the three groups, an empty line, and the chapters of the three groups; a group without
sections has no lines in either place. -/
theorem Document.lines_eq_groups (service origin : Service) (banner : Option (List String))
    (interface source : Interface) :
    ∃ (methods : List Method) (types : Table ComplexType) (enums : Table EnumType),
      IsStableOrder Method.name interface.methods methods ∧
      IsEntryOrder (fun type => entityDisplayName type.name)
        (Reach.ofInterface origin source).types types ∧
      IsEntryOrder (fun enum => entityDisplayName enum.name)
        (Reach.ofInterface origin source).enums enums ∧
      (Document.ofInterface service banner interface (.ofInterface origin source)).lines =
        (Document.ofInterface service banner interface (.ofInterface origin source)).frontLines ++
        (Section.entries "Methods" (methods.map (Section.ofMethod service)) ++
          (Section.entries "Types" (types.map fun entry => Section.ofType service entry.2) ++
            Section.entries "Enums" (enums.map fun entry => Section.ofEnum entry.2))) ++
        "" ::
        (Section.chapterLines "Methods" (methods.map (Section.ofMethod service)) ++
          (Section.chapterLines "Types" (types.map fun entry => Section.ofType service entry.2) ++
            Section.chapterLines "Enums" (enums.map fun entry => Section.ofEnum entry.2))) := by
  have hlists := (Reach.complete_ofInterface origin source).lists
  refine ⟨_, _, _, isStableOrder_sortByText _ _, isEntryOrder_sortByText hlists.types.ascending,
    isEntryOrder_sortByText hlists.enums.ascending, ?_⟩
  -- Sorting entities by display name is sorting their entries.
  have htypes : ∀ table : Table ComplexType,
      (sortByText (fun entry => entityDisplayName entry.2.name) table).map Prod.snd =
        sortByText (fun type => entityDisplayName type.name) (table.map Prod.snd) :=
    fun table => map_sortByText fun _ => rfl
  have henums : ∀ table : Table EnumType,
      (sortByText (fun entry => entityDisplayName entry.2.name) table).map Prod.snd =
        sortByText (fun enum => entityDisplayName enum.name) (table.map Prod.snd) :=
    fun table => map_sortByText fun _ => rfl
  have hchapters : (Document.ofInterface service banner interface
      (.ofInterface origin source)).chapters = Chapter.nonempty
        [Chapter.ofMethods service interface.methods,
          Chapter.ofTypes service ((Reach.ofInterface origin source).types.map Prod.snd),
          Chapter.ofEnums ((Reach.ofInterface origin source).enums.map Prod.snd)] := rfl
  rw [lines_of_chapters hchapters]
  simp only [List.flatMap_cons, List.flatMap_nil, List.append_nil, Chapter.ofMethods,
    Chapter.ofTypes, Chapter.ofEnums, ← htypes, ← henums, List.map_map, Function.comp_def]

end ServiceManual
