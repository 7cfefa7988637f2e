import ServiceManual.Proofs.Document.Sections
import ServiceManual.Proofs.Expansion

/-!
# Links of a document

Two procedures that know nothing of each other have to agree on every link.  The one expands a
reference into its leaves, with a guard on each path through the unions, and makes a leaf a link
to the anchor of a display name.  The other walks from the signatures of the interface, with one
list of visited names for a side, and what it has met gets a section under a heading.

They agree because both follow the same graph.  Whatever a document shows for a parameter, a
property or a return value is the expansion of a reference that the signatures reach
(`Service.exists_reached_of_shows`), the leaves of an expansion are reached from the reference,
and every reached type or enum has its section.  The main statement is
`Document.link_leads_to_section`.
-/

namespace ServiceManual

/-- Every entity stands under its own name. -/
structure Service.KeyedByName (service : Service) : Prop where
  types : ∀ entry ∈ service.types, entry.2.name = entry.1
  unions : ∀ entry ∈ service.unions, entry.2.name = entry.1
  enums : ∀ entry ∈ service.enums, entry.2.name = entry.1

/-- A block shows the type of a return value, or of a parameter or a property.  The keys and values
of a dictionary type are shown otherwise. -/
inductive Block.Shows : Block → Expansion → Prop
  | returns (type : Expansion) : Shows (.returns type) type
  | member {items : List Bullet} {name : String} {type : Expansion} {required : Bool}
      {description rules : List String}
      (hitem : .member name type required description rules ∈ items) : Shows (.bullets items) type

/-- A document shows a type in one of its blocks. -/
def Document.Shows (document : Document) (type : Expansion) : Prop :=
  ∃ block ∈ document.blocks, block.Shows type

/-- The link of a reference leads to the heading of a section that the document has. -/
structure Document.LeadsTo (document : Document) (ref : TypeReference) (part : Section) : Prop where
  printed : part.blocks <:+: document.blocks
  heading : "### " ++ part.heading ∈ document.lines
  target : ref.target? = some (Naming.anchor part.heading)

/-! ## What a section shows -/

namespace Section

variable {service : Service} {block : Block} {type : Expansion}

theorem exists_member_of_shows {members : List Member}
    (hblock : block ∈ bulletList (members.map (bullet service))) (hshows : block.Shows type) :
    ∃ member ∈ members, type = service.expand member.value := by
  unfold bulletList at hblock
  split at hblock
  · simp at hblock
  · obtain rfl := List.mem_singleton.mp hblock
    cases hshows with
    | member hitem =>
        obtain ⟨member, hmember, hbullet⟩ := List.mem_map.mp hitem
        simp only [bullet, Bullet.member.injEq] at hbullet
        exact ⟨member, hmember, hbullet.2.1.symm⟩

theorem exists_ref_of_shows_ofMethod {method : Method}
    (hblock : block ∈ (ofMethod service method).blocks) (hshows : block.Shows type) :
    ∃ ref ∈ method.signatureTypes, type = service.expand ref := by
  simp only [blocks, ofMethod, List.mem_cons, List.mem_append, Option.mem_toList,
    Option.map_eq_some_iff, List.mem_map, or_assoc] at hblock
  rcases hblock with rfl | rfl | hbullets | ⟨returns, hreturns, rfl⟩ | ⟨text, -, rfl⟩
  · cases hshows
  · cases hshows
  · obtain ⟨parameter, hparameter, rfl⟩ := exists_member_of_shows hbullets hshows
    rw [(sortByText_perm _ _).mem_iff] at hparameter
    exact ⟨_, Method.value_mem_signatureTypes hparameter, rfl⟩
  · cases hshows
    exact ⟨_, Method.returns_mem_signatureTypes hreturns, rfl⟩
  · cases hshows

theorem exists_property_of_shows_ofType {entity : ComplexType}
    (hblock : block ∈ (ofType service entity).blocks) (hshows : block.Shows type) :
    ∃ property ∈ entity.properties, type = service.expand property.value := by
  simp only [blocks, ofType, List.mem_cons, List.mem_append, List.mem_map, or_assoc] at hblock
  rcases hblock with rfl | rfl | ⟨text, -, rfl⟩ | hbullets | hmap
  · cases hshows
  · cases hshows
  · cases hshows
  · exact exists_member_of_shows hbullets hshows
  -- The bullets of keys and values are not those of members.
  · cases hmapProperties : entity.mapProperties with
    | none => simp [hmapProperties] at hmap
    | some map =>
        simp only [hmapProperties, Option.map_some, Option.getD_some, mapBlocks, List.mem_cons,
          List.not_mem_nil, or_false] at hmap
        rcases hmap with rfl | rfl
        · cases hshows
        · cases hshows with
          | member hitem => simp at hitem

theorem not_shows_ofEnum {enum : EnumType} (hblock : block ∈ (ofEnum enum).blocks) :
    ¬ block.Shows type := by
  intro hshows
  simp only [blocks, ofEnum, List.mem_cons, List.mem_append, Option.mem_toList,
    Option.map_eq_some_iff, or_assoc] at hblock
  rcases hblock with rfl | rfl | ⟨text, -, rfl⟩ | hbullets
  · cases hshows
  · cases hshows
  · cases hshows
  · unfold bulletList at hbullets
    split at hbullets
    · simp at hbullets
    · obtain rfl := List.mem_singleton.mp hbullets
      cases hshows with
      | member hitem => simp [valueBullet] at hitem

end Section

/-! ## What a document shows -/

namespace Service

variable {service : Service} {banner : Option (List String)} {interface : Interface}
  {type : Expansion}

/-- Blocks outside the sections show nothing. -/
theorem exists_section_of_shows {document : Document} (hshows : document.Shows type) :
    ∃ part ∈ document.sections, ∃ block ∈ part.blocks, block.Shows type := by
  obtain ⟨block, hblock, hshows⟩ := hshows
  rcases Document.mem_blocks_iff.mp hblock with ⟨lines, -, rfl⟩ | rfl | ⟨text, -, rfl⟩ | rfl |
    ⟨chapter, -, rfl⟩ | ⟨part, hpart, hblock⟩
  · cases hshows
  · cases hshows
  · cases hshows
  · cases hshows
  · cases hshows
  · exact ⟨part, hpart, block, hblock, hshows⟩

theorem exists_reached_of_shows (hshows : (service.document banner interface).Shows type) :
    ∃ ref, type = service.expand ref ∧ (ref.isPrimitive = false →
      service.ReachedFrom interface.signatureTypes ref.typeName) := by
  obtain ⟨part, hpart, block, hblock, hshows⟩ := exists_section_of_shows hshows
  rcases mem_sections_document_iff.mp hpart with ⟨method, hmethod, rfl⟩ | ⟨entry, hentry, rfl⟩ |
    ⟨entry, -, rfl⟩
  · obtain ⟨ref, href, rfl⟩ := Section.exists_ref_of_shows_ofMethod hblock hshows
    exact ⟨ref, rfl, reachedFrom_of_mem (Interface.signatureTypes_subset hmethod href)⟩
  · obtain ⟨property, hproperty, rfl⟩ := Section.exists_property_of_shows_ofType hblock hshows
    obtain ⟨hreached, htype⟩ :=
      ((Reach.complete_ofInterface service interface).lists.types.mem_iff _ _).mp hentry
    refine ⟨property.value, rfl, fun hcomplex => ?_⟩
    exact (reachedFrom_signatureTypes.mpr hreached).step (.property htype hproperty hcomplex)
  · exact absurd hshows (Section.not_shows_ofEnum hblock)

/-- The leaves of what a document shows are reached from its signatures. -/
theorem reachedFrom_of_leafAt {path : List String} {leaf : TypeReference}
    (hshows : (service.document banner interface).Shows type) (hleaf : type.LeafAt path leaf)
    (hcomplex : leaf.isPrimitive = false) :
    service.ReachedFrom interface.signatureTypes leaf.typeName := by
  obtain ⟨ref, rfl, hreached⟩ := exists_reached_of_shows hshows
  obtain ⟨hrefComplex, hpath⟩ := hleaf.reached hcomplex
  -- What an expansion follows is part of what a walk follows.
  exact (hreached hrefComplex).trans (Relation.ReflTransGen.mono (fun _ _ => .member) _ _ hpath)

end Service

/-! ## Links -/

/-- A link to an entity leads to the heading under its display name. -/
theorem TypeReference.target?_eq_anchor {ref : TypeReference} (hcomplex : ref.isPrimitive = false) :
    ref.target? = some (Naming.anchor (entityDisplayName ref.typeName)) := by
  cases hkind : ref.kind with
  | primitive => simp [isPrimitive, hkind] at hcomplex
  | complex => simp [target?, scalarName, hkind]

theorem Service.get?_of_enum? {service : Service} {name : String} {enum : EnumType}
    (h : service.enum? name = some enum) : service.enums.get? name = some enum := by
  unfold enum? at h
  split at h
  · exact h
  · simp at h

/-- **Links lead to sections.**  Of what a document shows for parameters, properties and return
values, a leaf that names a type, or an enum that is not hidden by a type or a union, is a link to
the section of that very entity; a leaf that names a union occurs only within the expansion of
that union. -/
theorem Document.link_leads_to_section {service : Service} (hnames : service.KeyedByName)
    (banner : Option (List String)) (interface : Interface) {type : Expansion}
    (hshows : (service.document banner interface).Shows type) {path : List String}
    {leaf : TypeReference} (hleaf : type.LeafAt path leaf) (hcomplex : leaf.isPrimitive = false) :
    (∀ entity, service.types.get? leaf.typeName = some entity →
        (service.document banner interface).LeadsTo leaf (.ofType service entity)) ∧
      (∀ entity, service.enum? leaf.typeName = some entity →
        (service.document banner interface).LeadsTo leaf (.ofEnum entity)) ∧
      ∀ union, service.union? leaf.typeName = some union → leaf.typeName ∈ path := by
  -- What is reached and found has a section, with a heading under its own name.
  have hreached := Service.reachedFrom_of_leafAt hshows hleaf hcomplex
  refine ⟨fun entity hentity => ?_, fun entity hentity => ?_, fun union hunion => ?_⟩
  · have hname : entity.name = leaf.typeName := hnames.types _ (Table.mem_of_get? hentity)
    have hpart : .ofType service entity ∈ (service.document banner interface).sections :=
      Service.ofType_mem_sections hreached hentity
    refine ⟨isInfix_blocks hpart, heading_mem_lines hpart, ?_⟩
    rw [TypeReference.target?_eq_anchor hcomplex, ← hname]
    rfl
  · have hname : entity.name = leaf.typeName :=
      hnames.enums _ (Table.mem_of_get? (Service.get?_of_enum? hentity))
    have hpart : .ofEnum entity ∈ (service.document banner interface).sections :=
      Service.ofEnum_mem_sections hreached hentity
    refine ⟨isInfix_blocks hpart, heading_mem_lines hpart, ?_⟩
    rw [TypeReference.target?_eq_anchor hcomplex, ← hname]
    rfl
  · obtain ⟨ref, rfl, -⟩ := Service.exists_reached_of_shows hshows
    exact hleaf.mem_path_of_union? hcomplex hunion

/-- The friends of a pet are shown, and the kind among them is a link to its section. -/
theorem petstore_kind_leads_to_section :
    petstore.KeyedByName ∧
      (petstore.document none petInterface).Shows (petstore.expand friends) ∧
      (petstore.expand friends).LeafAt ["Friend"] ⟨.complex, "Kind", false⟩ ∧
      (petstore.document none petInterface).LeadsTo ⟨.complex, "Kind", false⟩
        (.ofEnum ⟨"Kind", [.text "cat"], none⟩) := by
  have hnames : petstore.KeyedByName := ⟨by decide, by decide, by decide⟩
  have hshows : (petstore.document none petInterface).Shows (petstore.expand friends) := by
    refine ⟨.bullets (petType.properties.map (Section.bullet petstore)), ?_,
      .member List.mem_cons_self⟩
    exact (Document.isInfix_blocks (Service.ofType_mem_sections petstore_reaches_pet rfl)).subset
      (by simp [Section.blocks, Section.ofType, Section.bulletList, petType])
  have hleaf : (petstore.expand friends).LeafAt ["Friend"] ⟨.complex, "Kind", false⟩ := by
    unfold Service.expand
    rw [Service.expandWithin_eq_alternatives rfl (by simp) rfl]
    refine .inside (List.mem_cons_of_mem _ List.mem_cons_self) ?_
    rw [Service.expandWithin_eq_leaf (.inr (.inr rfl))]
    exact .leaf _
  exact ⟨hnames, hshows, hleaf,
    (Document.link_leads_to_section hnames none petInterface hshows hleaf rfl).2.1 _ rfl⟩

end ServiceManual
