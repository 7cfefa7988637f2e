import ServiceManual.Proofs.Document.Links
import ServiceManual.Proofs.Loading
import ServiceManual.Proofs.SortedTable
import ServiceManual.Proofs.Service.RoundTrip

/-!
# Under which names entities stand

Entities are looked up by the keys of their tables, sorted by these, and shown under the names that
they carry.  A list of entities is keyed by the names of its items, and a mapping lends its keys to
entities without a name, so key and name agree (`name_eq_or_givesName`).  Only an entity of a
mapping that has a name of its own keeps it, and stays under the key all the same
(`exists_entry_of_givesName`).

The main statement `Service.keyedByName_iff` is on all three tables of a service.
-/

namespace ServiceManual

open Raw Checked

/-- A mapping has an entity with this name of its own under this key.  Of keys that spell one text
the last one counts. -/
def Raw.GivesName (value : Raw) (key own : String) : Prop :=
  ∃ before spelled fields name after,
    value = .mapping (before ++ (spelled, .mapping fields) :: after) ∧
      readText (.scalar spelled) = .valid key ∧ field? "name" fields = some name ∧
      readText name = .valid own ∧ ∀ later ∈ after, readText (.scalar later.1) ≠ .valid key

/-- What is read carries the name that stands in its field for it. -/
def ReadsName {α : Type} (read : Raw → Checked α) (nameOf : α → String) : Prop :=
  ∀ part a, read part = .valid a →
    ∃ name, part.FieldIs "name" name ∧ readText name = .valid (nameOf a)

/-! ## The names of entities -/

theorem ComplexType.readsName : ReadsName ComplexType.read ComplexType.name := by
  intro part type h
  simp only [ComplexType.read, readModel_eq_valid_iff, map_eq, seq_eq, apply_eq_valid_iff,
    map_eq_valid_iff] at h
  obtain ⟨fields, rfl, _, _, ⟨_, _, ⟨_, _, ⟨_, hname, rfl⟩, -, rfl⟩, -, rfl⟩, -, rfl⟩ := h
  simpa using hname

theorem UnionType.readsName : ReadsName UnionType.read UnionType.name := by
  intro part union h
  simp only [UnionType.read, readModel_eq_valid_iff, map_eq, seq_eq, apply_eq_valid_iff,
    map_eq_valid_iff] at h
  obtain ⟨fields, rfl, _, _, ⟨_, _, ⟨_, hname, rfl⟩, -, rfl⟩, -, rfl⟩ := h
  simpa using hname

theorem field?_liftMetadata {fields lifted : List (Scalar × Raw)} {name : String}
    (h : liftMetadata fields = .ok lifted) (hmeta : "meta" ≠ name) (hdocs : "docs" ≠ name) :
    field? name lifted = field? name fields := by
  unfold liftMetadata at h
  split at h
  · obtain rfl := Except.ok.inj h
    rfl
  · rename_i metadata _
    simp only at h
    split at h
    · obtain rfl := Except.ok.inj h
      exact field?_without hmeta
    · cases hentries : metadataEntries metadata with
      | error fault => simp [hentries, Except.map] at h
      | ok entries =>
          simp only [hentries, Except.map, Except.ok.injEq] at h
          subst h
          split
          · exact field?_without hmeta
          · rw [field?_insert_of_ne hdocs, field?_without hmeta]

theorem EnumType.readsName : ReadsName EnumType.read EnumType.name := by
  intro part enum h
  rw [EnumType.read, readModel_eq_valid_iff] at h
  obtain ⟨given, rfl, h⟩ := h
  split at h
  · cases h
  · rename_i fields hlifted
    simp only [map_eq, seq_eq, apply_eq_valid_iff, map_eq_valid_iff] at h
    obtain ⟨_, _, ⟨_, _, ⟨_, hname, rfl⟩, -, rfl⟩, -, rfl⟩ := h
    rw [requiredField_eq_valid_iff, field?_liftMetadata hlifted (by decide) (by decide)] at hname
    simpa using hname

/-! ## Keys -/

/-- Texts and bytes are compared as they are. -/
theorem eq_of_asKey_eq_of_readText {key other : Scalar} {text : String}
    (hkey : readText (.scalar key) = .valid text) (hsame : other.asKey = key) : other = key := by
  cases other with
  | null | integer | text | bytes | date | moment => exact hsame
  | flag =>
      subst hsame
      cases hkey
  | real value =>
      simp only [Scalar.asKey] at hsame
      split at hsame
      · subst hsame
        cases hkey
      · exact hsame

theorem eq_of_sameKey_of_readText {key other : Scalar} {text : String}
    (hkey : readText (.scalar key) = .valid text) (hsame : key.sameKey other = true) :
    other = key := by
  refine eq_of_asKey_eq_of_readText hkey ?_
  cases key with
  | text | bytes =>
      simp only [Scalar.sameKey, Scalar.asKey, beq_iff_eq] at hsame
      exact hsame.symm
  | null | flag | integer | real | date | moment => cases hkey

theorem name_of_namedItems {items : List Raw} {entries : List (Scalar × Raw)}
    {entry : Scalar × Raw} {name : Raw} (h : namedItems items = .ok entries)
    (hentry : entry ∈ entries) (hname : entry.2.FieldIs "name" name) : name = .scalar entry.1 := by
  induction items generalizing entries with
  | nil =>
      obtain rfl := Except.ok.inj h
      cases hentry
  | cons item rest ih =>
      obtain ⟨fields, key, more, rfl, hkey, hmore, rfl⟩ := namedItems_cons_eq_ok_iff.mp h
      rcases List.mem_cons.mp hentry with rfl | hrest
      · simpa [fieldIs_mapping.mp hname] using hkey
      · exact ih hmore hrest

@[simp] theorem namedByKey_fst (entry : Scalar × Raw) : (namedByKey entry).1 = entry.1 := by
  unfold namedByKey
  split
  · split <;> rfl
  · rfl

/-- The key that a mapping lends is put where no name was. -/
theorem namedByKey_cases {entry : Scalar × Raw} {name : Raw}
    (hname : (namedByKey entry).2.FieldIs "name" name) :
    name = .scalar entry.1 ∨
      ∃ fields, entry.2 = .mapping fields ∧ field? "name" fields = some name := by
  obtain ⟨key, part⟩ := entry
  cases part with
  | mapping fields =>
      cases hfield : field? "name" fields with
      | some own =>
          simp only [namedByKey, hfield, fieldIs_mapping] at hname
          exact .inr ⟨fields, rfl, hfield.trans hname⟩
      | none =>
          simp only [namedByKey, hfield, fieldIs_mapping, field?_append_self hfield _] at hname
          exact .inl (Option.some.inj hname).symm
  | scalar | list | set | pair =>
      obtain ⟨fields, hfields, -⟩ := hname
      cases hfields

/-! ## Tables of entities -/

section

variable {α : Type} {read : Raw → Checked α} {nameOf : α → String} {value : Raw}
  {table : Table α} {key own : String}

/-- An entity is under its own name, or a mapping has it under another one. -/
theorem name_eq_or_givesName (hreads : ReadsName read nameOf)
    (h : readEntities read value = .valid table) {entry : String × α} (hentry : entry ∈ table) :
    nameOf entry.2 = entry.1 ∨ value.GivesName entry.1 (nameOf entry.2) := by
  unfold readEntities at h
  split at h
  · cases h
  rename_i keyed hkeyed
  obtain ⟨entries, _, rfl, -, -⟩ := readTable_eq_valid_iff.mp h
  obtain ⟨before, item, after, rfl, hkey, hmodel, hlast⟩ := (mem_iff_of_readTable h).mp hentry
  obtain ⟨name, hname, hown⟩ := hreads _ _ hmodel
  cases value with
  | list items =>
      -- In a list every entity is put under its own name.
      left
      cases hitems : namedItems items with
      | error fault => simp [keyedByName, hitems, Except.map] at hkeyed
      | ok named =>
          obtain hassigned : ofAssignments named = before ++ item :: after := by
            simpa [keyedByName, hitems, Except.map] using hkeyed
          obtain ⟨given, hgiven, hvalue, hsame⟩ := exists_assignment_of_mem_assigned
            (hassigned ▸ List.mem_append_right _ List.mem_cons_self : item ∈ ofAssignments named)
          have hitem : given.1 = item.1 :=
            hsame.elim Eq.symm (eq_of_sameKey_of_readText hkey)
          obtain rfl := name_of_namedItems hitems hgiven (hvalue ▸ hname)
          rw [hitem] at hown
          exact Checked.valid.inj (hown.symm.trans hkey)
  | mapping given =>
      have hgiven : given.map namedByKey = before ++ item :: after := by
        simpa [keyedByName] using hkeyed
      obtain ⟨earlier, rest, rfl, rfl, hrest⟩ := List.map_eq_append_iff.mp hgiven
      obtain ⟨lent, later, rfl, rfl, rfl⟩ := List.map_eq_cons_iff.mp hrest
      rw [namedByKey_fst] at hkey
      -- A mapping lends the key to an entity without a name.
      rcases namedByKey_cases hname with rfl | ⟨fields, hfields, hfield⟩
      · exact .inl (Checked.valid.inj (hown.symm.trans hkey))
      · refine .inr ⟨earlier, lent.1, fields, name, later, ?_, hkey, hfield, hown, ?_⟩
        · rw [← hfields]
        · simpa only [List.forall_mem_map, namedByKey_fst] using hlast
  | scalar value => cases value <;> simp_all [keyedByName]
  | set | pair => simp [keyedByName] at hkeyed

/-- What a mapping has under a key stays there, whatever its own name is. -/
theorem exists_entry_of_givesName (hreads : ReadsName read nameOf)
    (h : readEntities read value = .valid table) (hgives : value.GivesName key own) :
    ∃ entity, (key, entity) ∈ table ∧ nameOf entity = own := by
  obtain ⟨before, spelled, fields, name, after, rfl, hkey, hfield, hown, hlast⟩ := hgives
  simp only [readEntities, keyedByName, List.map_append, List.map_cons] at h
  have hkept : namedByKey (spelled, .mapping fields) = (spelled, .mapping fields) := by
    simp [namedByKey, hfield]
  rw [hkept] at h
  obtain ⟨_, named, hentries, hread, -⟩ := readTable_eq_valid_iff.mp h
  obtain rfl := Raw.mapping.inj hentries
  obtain ⟨⟨other, entity⟩, -, -, hentity⟩ := exists_mem_of_forall₂
    (readEntries_eq_valid_iff.mp hread).flip (List.mem_append_right _ List.mem_cons_self)
  refine ⟨entity, (mem_iff_of_readTable h).mpr
    ⟨_, _, _, rfl, hkey, hentity, by simpa only [List.forall_mem_map, namedByKey_fst]⟩, ?_⟩
  obtain ⟨again, hagain, hname⟩ := hreads _ _ hentity
  obtain rfl : name = again := Option.some.inj (hfield.symm.trans (fieldIs_mapping.mp hagain))
  exact Checked.valid.inj (hname.symm.trans hown)

end

/-! ## Services -/

/-- In the field of this name there is a mapping that has an entity with its own name under a
key. -/
def Raw.GivesNameIn (value : Raw) (field key own : String) : Prop :=
  ∃ part, value.FieldIs field part ∧ part.GivesName key own

section

variable {α : Type} {read : Raw → Checked α} {nameOf : α → String} {field key own : String}
  {fields : List (Scalar × Raw)} {table : Table α}

theorem name_eq_or_givesNameIn (hreads : ReadsName read nameOf)
    (h : optionalField field [] (readEntities read) fields = .valid table) {entry : String × α}
    (hentry : entry ∈ table) :
    nameOf entry.2 = entry.1 ∨ (mapping fields).GivesNameIn field entry.1 (nameOf entry.2) := by
  rcases optionalField_eq_valid_iff.mp h with ⟨-, rfl⟩ | ⟨part, hpart, hread⟩
  · cases hentry
  · exact (name_eq_or_givesName hreads hread hentry).imp_right fun hgives =>
      ⟨part, fieldIs_mapping.mpr hpart, hgives⟩

theorem exists_entry_of_givesNameIn (hreads : ReadsName read nameOf)
    (h : optionalField field [] (readEntities read) fields = .valid table)
    (hgives : (mapping fields).GivesNameIn field key own) :
    ∃ entity, (key, entity) ∈ table ∧ nameOf entity = own := by
  obtain ⟨part, hpart, hgives⟩ := hgives
  rw [fieldIs_mapping] at hpart
  rcases optionalField_eq_valid_iff.mp h with ⟨hnone, -⟩ | ⟨other, hother, hread⟩
  · cases hnone.symm.trans hpart
  · obtain rfl : part = other := Option.some.inj (hpart.symm.trans hother)
    exact exists_entry_of_givesName hreads hread hgives

end

/-- **Keys and names.**  Every entity of a service that was read is under its own name, unless a
mapping has it under another key: then it is found under that key, with its own name. -/
theorem Service.keyedByName_iff {path : Option Path} {value : Raw} {service : Service}
    (hread : Service.ofRaw path value = .ok service) :
    (service.KeyedByName ↔ ∀ field ∈ ["types", "enums", "unions"], ∀ key own,
      value.GivesNameIn field key own → own = key) ∧
    (∀ name type, service.types.get? name = some type →
      type.name = name ∨ value.GivesNameIn "types" name type.name) ∧
    (∀ name enum, service.enums.get? name = some enum →
      enum.name = name ∨ value.GivesNameIn "enums" name enum.name) ∧
    (∀ name union, service.unions.get? name = some union →
      union.name = name ∨ value.GivesNameIn "unions" name union.name) := by
  rw [Service.ofRaw_eq_ok_iff] at hread
  obtain ⟨fields, rfl, -, -, -, -, htypes, henums, hunions⟩ := Service.read_eq_valid_iff.mp hread
  refine ⟨⟨fun hkeyed => ?_, fun hnone => ⟨fun entry hentry => ?_, fun entry hentry => ?_,
      fun entry hentry => ?_⟩⟩,
    fun name type hfound => name_eq_or_givesNameIn ComplexType.readsName htypes
      (Table.mem_of_get? hfound),
    fun name enum hfound => name_eq_or_givesNameIn EnumType.readsName henums
      (Table.mem_of_get? hfound),
    fun name union hfound => name_eq_or_givesNameIn UnionType.readsName hunions
      (Table.mem_of_get? hfound)⟩
  · intro field hfield key own hgives
    simp only [List.mem_cons, List.not_mem_nil, or_false] at hfield
    rcases hfield with rfl | rfl | rfl
    · obtain ⟨type, hentry, rfl⟩ :=
        exists_entry_of_givesNameIn ComplexType.readsName htypes hgives
      exact hkeyed.types _ hentry
    · obtain ⟨enum, hentry, rfl⟩ := exists_entry_of_givesNameIn EnumType.readsName henums hgives
      exact hkeyed.enums _ hentry
    · obtain ⟨union, hentry, rfl⟩ :=
        exists_entry_of_givesNameIn UnionType.readsName hunions hgives
      exact hkeyed.unions _ hentry
  · exact (name_eq_or_givesNameIn ComplexType.readsName htypes hentry).elim id
      (hnone _ (by simp) _ _)
  · exact (name_eq_or_givesNameIn UnionType.readsName hunions hentry).elim id
      (hnone _ (by simp) _ _)
  · exact (name_eq_or_givesNameIn EnumType.readsName henums hentry).elim id
      (hnone _ (by simp) _ _)

/-- A description of a type in a list, an enum under a key, and a union with this name of its own
under the key for animals. -/
def kennel (own : String) : Raw :=
  .ofFields [("title", .text "Pets"), ("types", .list [.ofFields [("name", .text "Pet")]]),
    ("enums", .ofFields [("Size", .ofFields [])]),
    ("unions", .ofFields [("Animal", .ofFields [("name", .text own)])])]

/-- What is described by that. -/
def kennelService (own : String) : Service where
  title := "Pets"
  majorVersion := 1
  sourcePath := none
  interfaces := []
  types := [("Pet", ⟨"Pet", [], [], none⟩)]
  enums := [("Size", ⟨"Size", [], none⟩)]
  unions := [("Animal", ⟨own, [], []⟩)]

theorem givesName_singleton_iff {spelled : Scalar} {part : Raw} {key own : String} :
    (mapping [(spelled, part)]).GivesName key own ↔
      readText (.scalar spelled) = .valid key ∧
        ∃ name, part.FieldIs "name" name ∧ readText name = .valid own := by
  constructor
  · rintro ⟨before, _, fields, name, after, hentries, hkey, hfield, hown, -⟩
    cases before with
    | nil =>
        obtain ⟨hentry, -⟩ := List.cons.inj (Raw.mapping.inj hentries)
        obtain ⟨rfl, rfl⟩ := Prod.mk.inj hentry
        exact ⟨hkey, name, fieldIs_mapping.mpr hfield, hown⟩
    | cons => simp at hentries
  · rintro ⟨hkey, name, ⟨fields, rfl, hfield⟩, hown⟩
    exact ⟨[], spelled, fields, name, [], rfl, hkey, hfield, hown, by simp⟩

/-- With the key as its name the union is no exception. -/
theorem kennel_keyedByName :
    Service.ofRaw none (kennel "Animal") = .ok (kennelService "Animal") ∧
      (kennelService "Animal").KeyedByName := by
  have hread : Service.ofRaw none (kennel "Animal") = .ok (kennelService "Animal") := rfl
  refine ⟨hread, (Service.keyedByName_iff hread).1.mpr ?_⟩
  rintro field hfield key own ⟨part, hpart, hgives⟩
  simp only [List.mem_cons, List.not_mem_nil, or_false] at hfield
  rcases hfield with rfl | rfl | rfl
  · obtain rfl : .list _ = part := Option.some.inj (fieldIs_mapping.mp hpart)
    obtain ⟨_, _, _, _, _, hlist, -⟩ := hgives
    cases hlist
  · obtain rfl : Raw.ofFields _ = part := Option.some.inj (fieldIs_mapping.mp hpart)
    obtain ⟨-, name, hname, -⟩ := givesName_singleton_iff.mp hgives
    cases fieldIs_mapping.mp hname
  · obtain rfl : Raw.ofFields _ = part := Option.some.inj (fieldIs_mapping.mp hpart)
    obtain ⟨hkey, name, hname, hown⟩ := givesName_singleton_iff.mp hgives
    obtain rfl : Raw.text _ = name := Option.some.inj (fieldIs_mapping.mp hname)
    exact (Checked.valid.inj hown).symm.trans (Checked.valid.inj hkey)

/-- With another name the union is found under the key, not under its name. -/
theorem kennel_not_keyedByName :
    Service.ofRaw none (kennel "Creature") = .ok (kennelService "Creature") ∧
      (∃ union, (kennelService "Creature").unions.get? "Animal" = some union ∧
        union.name = "Creature") ∧ ¬ (kennelService "Creature").KeyedByName := by
  refine ⟨rfl, ⟨_, rfl, rfl⟩, fun hkeyed => ?_⟩
  exact absurd (hkeyed.unions _ List.mem_cons_self) (by decide)

end ServiceManual
