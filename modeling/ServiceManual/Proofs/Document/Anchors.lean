import ServiceManual.Proofs.Document.Links
import ServiceManual.Proofs.Words

/-!
# When a link has one target

The table of contents and the links to types lead to anchors, and an anchor is made from a heading
alone.  The heading of a section is a casing of a name, in small letters it is the letters and
digits of that name, and so is its anchor (`Naming.anchor_camel`, `Naming.anchor_pascal`).  Two
sections therefore share an anchor exactly when their names have the same letters and digits, up
to case, be they names of methods, of types or of enums (`Subject.anchor_part_eq_iff`, and for a
whole document `Document.anchors_nodup_iff`).

Different names are not enough for that: a method `pet` beside a type `Pet`, as in
`petstore_anchors_not_nodup`, makes the link to the type lead to the method.
-/

namespace ServiceManual

namespace Naming

/-- In the anchor of a heading that keeps the letters and digits of a name nothing else is kept. -/
theorem anchor_of_lower_eq_bare {s t : List Char} (ht : Words.lower t = Words.bare s) :
    anchor (String.ofList t) = String.ofList ('#' :: Words.bare s) := by
  have hword : ∀ c ∈ t, Words.isWordChar c = true :=
    fun c hc => Words.isWordChar_of_lower_eq_bare ht hc
  have hlower : Text.lowerAfter [] t = Words.bare s :=
    (Text.lowerAfter_ascii [] fun c hc => Words.toNat_lt_of_isWordChar (hword c hc)).trans ht
  -- There are no spaces, so no hyphen is put in.
  have hyphens : (Words.bare s).map (fun c => if c = ' ' then '-' else c) = Words.bare s := by
    refine (List.map_congr_left fun c hc => if_neg ?_).trans (List.map_id _)
    rintro rfl
    obtain ⟨d, hd, hcase⟩ := List.mem_map.mp (ht ▸ hc : ' ' ∈ Words.lower t)
    have hspace := Words.isWordChar_toLower d
    rw [hcase, hword d hd] at hspace
    exact absurd hspace (by decide)
  rw [anchor, String.toList_ofList, hlower, hyphens]

/-- The anchor of a heading with capitals inside is made of the letters and digits of the name. -/
theorem anchor_camel (name : String) :
    anchor (camel name) = String.ofList ('#' :: Words.bare name.toList) :=
  anchor_of_lower_eq_bare (Words.lower_camel _)

theorem anchor_pascal (name : String) :
    anchor (pascal name) = String.ofList ('#' :: Words.bare name.toList) :=
  anchor_of_lower_eq_bare (Words.lower_pascal _)

theorem anchor_camel_eq (name : String) : anchor (camel name) = "#" ++ bare name := by
  rw [anchor_camel, String.ofList_cons]
  rfl

theorem anchor_pascal_eq (name : String) : anchor (pascal name) = "#" ++ bare name := by
  rw [anchor_pascal, String.ofList_cons]
  rfl

end Naming

/-- The anchor of a section. -/
def Section.anchor (part : Section) : String :=
  Naming.anchor part.heading

/-- What a document can have a section on. -/
inductive Subject
  | method (method : Method)
  | type (type : ComplexType)
  | enum (enum : EnumType)

namespace Subject

def name : Subject → String
  | .method item => item.name
  | .type item => item.name
  | .enum item => item.name

/-- The section on it. -/
def part (service : Service) : Subject → Section
  | .method item => .ofMethod service item
  | .type item => .ofType service item
  | .enum item => .ofEnum item

theorem anchor_part (service : Service) (subject : Subject) :
    (subject.part service).anchor = "#" ++ Naming.bare subject.name := by
  rw [Section.anchor]
  cases subject with
  | method item => exact Naming.anchor_camel_eq item.name
  | type item => exact Naming.anchor_pascal_eq item.name
  | enum item => exact Naming.anchor_pascal_eq item.name

/-- **Anchors forget casing and nothing else.**  The anchor of a name is made of its letters and
digits in small letters, no matter which of the two casings of headings it has been put in.  So two
sections, be they on methods, types or enums, have the same anchor if and only if the names of what
they are on have the same letters and digits, up to case. -/
theorem anchor_part_eq_iff (name : String) (service other : Service) (first second : Subject) :
    Naming.anchor (Naming.camel name) = "#" ++ Naming.bare name ∧
      Naming.anchor (Naming.pascal name) = "#" ++ Naming.bare name ∧
      ((first.part service).anchor = (second.part other).anchor ↔
        Naming.bare first.name = Naming.bare second.name) := by
  refine ⟨Naming.anchor_camel_eq name, Naming.anchor_pascal_eq name, ?_⟩
  rw [anchor_part, anchor_part]
  exact String.append_right_inj "#"

/-- Letters beyond ASCII are dropped, a letter that only looks like `K` among them. -/
example : Naming.anchor (Naming.camel "\u212Aelvin_scale") = "#elvinscale" ∧
    Naming.anchor (Naming.pascal "elvin Scale") = "#elvinscale" := by decide +kernel

end Subject

/-- The names of what the document of an interface has sections on: the methods, and the types and
the enums that the interface reaches. -/
def Service.documentedNames (service : Service) (interface : Interface) : List String :=
  interface.methods.map Method.name ++
    ((Reach.ofInterface service interface).types.map (fun entry => entry.2.name) ++
      (Reach.ofInterface service interface).enums.map fun entry => entry.2.name)

variable {service : Service} {banner : Option (List String)} {interface : Interface}

theorem Service.anchors_perm :
    ((service.document banner interface).sections.map Section.anchor).Perm
      ((service.documentedNames interface).map fun name =>
        String.ofList ('#' :: Words.bare name.toList)) := by
  rw [sections_document, documentedNames]
  simp only [List.map_append, List.map_map]
  -- Sections are sorted within their chapter only.
  refine List.Perm.append ?_ (List.Perm.append ?_ ?_)
  · have hanchor : ∀ method ∈ interface.methods, (Section.ofMethod service method).anchor =
        String.ofList ('#' :: Words.bare method.name.toList) :=
      fun method _ => Naming.anchor_camel method.name
    rw [Chapter.ofMethods, List.map_map]
    exact ((sortByText_perm _ _).map _).trans (.of_eq (List.map_congr_left hanchor))
  · rw [Chapter.ofTypes, List.map_map]
    refine ((sortByText_perm _ _).map _).trans (.of_eq ?_)
    rw [List.map_map]
    exact List.map_congr_left fun entry _ => Naming.anchor_pascal entry.2.name
  · rw [Chapter.ofEnums, List.map_map]
    refine ((sortByText_perm _ _).map _).trans (.of_eq ?_)
    rw [List.map_map]
    exact List.map_congr_left fun entry _ => Naming.anchor_pascal entry.2.name

/-- **Anchors are told apart by letters and digits.**  No two sections of a document have the same
anchor if and only if no two of the methods of the interface and the types and enums that it
reaches have names with the same letters and digits, up to case. -/
theorem Document.anchors_nodup_iff (service : Service) (banner : Option (List String))
    (interface : Interface) :
    ((service.document banner interface).sections.map Section.anchor).Nodup ↔
      ((service.documentedNames interface).map Naming.bare).Nodup := by
  have hmark : (fun name => String.ofList ('#' :: Words.bare name.toList)) =
      (fun bare => "#" ++ bare) ∘ Naming.bare := by
    funext name
    simp [Naming.bare, String.ofList_cons]
  rw [Service.anchors_perm.nodup_iff, hmark, ← List.map_map]
  exact List.nodup_map_iff fun first second hsame => by simpa using hsame

/-- An interface with a method that is called like the type it returns. -/
def lookupInterface : Interface where
  name := "lookup"
  description := []
  methods := [⟨"pet", [], [], some ⟨⟨.complex, "Pet", false⟩, []⟩⟩]

/-- Entities under their own names and different methods can share an anchor: the link to the type
leads to the heading of the method, which comes first. -/
theorem petstore_anchors_not_nodup :
    petstore.KeyedByName ∧ (lookupInterface.methods.map Method.name).Nodup ∧
      ¬ ((petstore.document none lookupInterface).sections.map Section.anchor).Nodup := by
  refine ⟨⟨by decide, by decide, by decide⟩, by decide, ?_⟩
  have hanchors : (petstore.document none lookupInterface).sections.map Section.anchor =
      ["#pet", "#pet", "#kind"] := by cbv
  rw [hanchors]
  decide

end ServiceManual
