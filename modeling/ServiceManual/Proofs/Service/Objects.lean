import ServiceManual.Proofs.Service.Fields

/-!
# Entities in lists and in mappings

Objects with names can be given in three ways: in a list; in a mapping that has each name once, in
the order of first occurrence, with the last object of that name; and in the same mapping without
the names in the objects, which take the keys instead (`Raw.GivesObjects`).

All three become one and the same table.  A list is read through assignments, which keep the first
place of a name and its last object (`assigned_eq_lastOfEach`).  What a mapping lends to an object
comes last in it, but objects are read by name.  So an object that is overwritten is never looked
at, and what is wrong with the others is found in the same places and in the same order
(`Service.ofRaw_eq_of_givesObjects`).
-/

namespace ServiceManual

open Raw Checked

/-! ## The last of each name -/

section

variable {α : Type} {entry : String × α}

/-- Each name once, in the order of first occurrence, with what stands last under it. -/
def lastOfEach (table : Table α) : Table α :=
  table.names.eraseDups.filterMap fun name => table.reverse.find? fun entry => entry.1 == name

theorem map_fst_assigned (table : Table α) :
    (assigned (· == ·) table).map Prod.fst = (table.map Prod.fst).eraseDups := by
  induction table using List.reverseRecOn with
  | nil => rfl
  | append_singleton before last ih =>
      have hnew : (∀ entry ∈ assigned (· == ·) before, (entry.1 == last.1) = false) ↔
          last.1 ∉ before.map Prod.fst := by
        rw [← List.mem_eraseDups, ← ih]
        simp only [beq_eq_false_iff_ne, List.mem_map, not_exists, not_and]
      rw [assigned_concat, map_fst_insertBy, ih, List.map_append, List.eraseDups_append]
      by_cases hname : last.1 ∈ before.map Prod.fst
      · rw [if_neg (mt hnew.mp (not_not_intro hname))]
        simp [List.removeAll, hname]
      · rw [if_pos (hnew.mpr hname)]
        simp [List.removeAll, hname, List.eraseDups_cons]

theorem assigned_eq_lastOfEach (table : Table α) : assigned (· == ·) table = lastOfEach table := by
  -- What is left under a name is the last entry under it.
  have hlast : ∀ entry ∈ assigned (· == ·) table,
      table.reverse.find? (fun other => other.1 == entry.1) = some entry := by
    intro entry hentry
    obtain ⟨before, after, rfl, hafter⟩ := mem_assigned_iff.mp hentry
    refine List.find?_eq_some_iff_append.mpr ⟨beq_self_eq_true _, after.reverse, before.reverse,
      by simp, fun other hother => ?_⟩
    have hother : other.1 ≠ entry.1 := fun h =>
      hafter (h ▸ List.mem_map_of_mem (List.mem_reverse.mp hother))
    simpa using hother
  calc assigned (· == ·) table
      = (assigned (· == ·) table).filterMap some := List.filterMap_some.symm
    _ = (assigned (· == ·) table).filterMap
          fun entry => table.reverse.find? fun other => other.1 == entry.1 :=
        List.filterMap_congr fun entry hentry => (hlast entry hentry).symm
    _ = ((assigned (· == ·) table).map Prod.fst).filterMap
          fun name => table.reverse.find? fun other => other.1 == name := by
        rw [List.filterMap_map]
        rfl
    _ = lastOfEach table := by rw [map_fst_assigned, lastOfEach, Table.names]

theorem mem_of_mem_lastOfEach {table : Table α} (h : entry ∈ lastOfEach table) :
    entry ∈ table := by
  obtain ⟨name, -, hfound⟩ := List.mem_filterMap.mp h
  exact List.mem_reverse.mp (List.mem_of_find?_eq_some hfound)

end

/-! ## Objects -/

/-- These objects with these names are given: in a list, under their names in a mapping, or there
without the names. -/
inductive Raw.GivesObjects (objects : Table (List (Scalar × Raw))) : Raw → Prop
  | listed : GivesObjects objects (.list (objects.map fun object => .mapping object.2))
  | keyed : GivesObjects objects
      (.ofFields ((lastOfEach objects).map fun object => (object.1, .mapping object.2)))
  | nameless : GivesObjects objects
      (.ofFields ((lastOfEach objects).map fun object =>
        (object.1, .mapping (without "name" object.2))))

section

variable {α : Type} {read : Raw → Checked α} {objects : Table (List (Scalar × Raw))}
  {value other : Raw}

theorem namedItems_objects
    (hnames : ∀ object ∈ objects, field? "name" object.2 = some (.text object.1)) :
    namedItems (objects.map fun object => .mapping object.2) =
      .ok (objects.map fun object => (.text object.1, .mapping object.2)) := by
  induction objects with
  | nil => rfl
  | cons object rest ih =>
      rw [List.forall_mem_cons] at hnames
      simp [namedItems, hnames.1, ih hnames.2, Except.map]

theorem keyedByName_listed
    (hnames : ∀ object ∈ objects, field? "name" object.2 = some (.text object.1)) :
    keyedByName (.list (objects.map fun object => .mapping object.2)) =
      .ok (.ofFields ((lastOfEach objects).map fun object => (object.1, .mapping object.2))) := by
  rw [keyedByName, namedItems_objects hnames, Except.map, ofAssignments_texts Raw.mapping,
    assigned_eq_lastOfEach, ofFields, List.map_map]
  rfl

theorem readEntries_map_congr {β : Type} {items : List β} {first second : β → Scalar × Raw}
    (h : ∀ item ∈ items, (first item).1 = (second item).1 ∧
      read (first item).2 = read (second item).2) :
    readEntries read (items.map first) = readEntries read (items.map second) := by
  induction items with
  | nil => rfl
  | cons item rest ih =>
      rw [List.forall_mem_cons] at h
      rw [List.map_cons, List.map_cons, readEntries, readEntries, h.1.1, h.1.2, ih h.2]

/-- A mapping of entities is read like another one with the same keys, if each entity is read like
the other one there once it has taken its key. -/
theorem readEntities_ofFields_congr {β : Type} {items : List β} {key : β → String}
    {first second : β → Raw}
    (h : ∀ item ∈ items,
      read (namedByKey (.text (key item), first item)).2 = read (second item)) :
    readEntities read (.ofFields (items.map fun item => (key item, first item))) =
      readTable read (.ofFields (items.map fun item => (key item, second item))) := by
  have hentries :
      readEntries read (items.map fun item => namedByKey (.text (key item), first item)) =
        readEntries read (items.map fun item => (.text (key item), second item)) :=
    readEntries_map_congr fun item hitem => ⟨namedByKey_fst _, h item hitem⟩
  simp only [readEntities, ofFields, keyedByName, readTable, List.map_map, Function.comp_def]
  rw [hentries]

theorem Raw.GivesObjects.readEntities_eq (hgives : GivesObjects objects value)
    (hread : ReadsByName read)
    (hnames : ∀ object ∈ objects, field? "name" object.2 = some (.text object.1)) :
    readEntities read value = readTable read
      (.ofFields ((lastOfEach objects).map fun object => (object.1, .mapping object.2))) := by
  have hlast : ∀ object ∈ lastOfEach objects, field? "name" object.2 = some (.text object.1) :=
    fun object hobject => hnames object (mem_of_mem_lastOfEach hobject)
  cases hgives with
  | listed => rw [readEntities, keyedByName_listed hnames]
  | keyed =>
      refine readEntities_ofFields_congr fun object hobject => ?_
      simp only [namedByKey, hlast object hobject]
  | nameless =>
      refine readEntities_ofFields_congr fun object hobject => ?_
      simp only [namedByKey, field?_without_self]
      exact hread _ _ (sameFields_without_append (hlast object hobject))

end

/-! ## Services -/

section

variable {path : Option Path} {field : String} {fields : List (Scalar × Raw)}
  {objects : Table (List (Scalar × Raw))} {given value : Raw}

/-- A service is read as before if what is given for its entities of one kind is replaced by what
is read as the same entities. -/
theorem Service.read_insert_entities (hfield : field ∈ ["types", "enums", "unions"])
    (hgiven : field? field fields = some given)
    (hsame : ∀ {α : Type} (read : Raw → Checked α), ReadsByName read →
      readEntities read value = readEntities read given) :
    Service.read (.mapping (Raw.insert (.text field) value fields)) =
      Service.read (.mapping fields) := by
  have hplain : ∀ name, name ∉ ["types", "enums", "unions"] →
      field? name (Raw.insert (.text field) value fields) = field? name fields :=
    fun name hname => field?_insert_of_ne (ne_of_mem_of_not_mem hfield hname) _
  -- The entities that are replaced are read alike, and the others are untouched.
  have htable : ∀ {α : Type} {read : Raw → Checked α} (name : String), ReadsByName read →
      optionalField name [] (readEntities read) (Raw.insert (.text field) value fields) =
        optionalField name [] (readEntities read) fields := by
    intro α read name hread
    by_cases hname : field = name
    · subst hname
      simp only [optionalField, field?_insert, if_true, hgiven, hsame read hread]
    · exact optionalField_congr (field?_insert_of_ne hname _)
  simp only [Service.read, readModel, htable _ ComplexType.readsByName,
    htable _ EnumType.readsByName, htable _ UnionType.readsByName,
    requiredField_congr (hplain "title" (by decide)),
    optionalField_congr (hplain "major_version" (by decide)),
    optionalField_congr (hplain "source_path" (by decide)),
    optionalField_congr (hplain "interfaces" (by decide))]

/-- **Lists and mappings agree.**  Where a service has objects with names for its types, enums or
unions, it comes to the same in all three ways of giving them: to the same service, or to the same
failure. -/
theorem Service.ofRaw_eq_of_givesObjects (hfield : field ∈ ["types", "enums", "unions"])
    (hnames : ∀ object ∈ objects, field? "name" object.2 = some (.text object.1))
    (hgiven : field? field fields = some given) (hgives : given.GivesObjects objects)
    (hvalue : value.GivesObjects objects) :
    Service.ofRaw path (.mapping (Raw.insert (.text field) value fields)) =
      Service.ofRaw path (.mapping fields) := by
  have hread : Service.read (.mapping (Raw.insert (.text field) value fields)) =
      Service.read (.mapping fields) :=
    read_insert_entities hfield hgiven fun read hread => by
      rw [hvalue.readEntities_eq hread hnames, hgives.readEntities_eq hread hnames]
  rw [Service.ofRaw, Service.ofRaw, hread]

end

/-- A type that is given twice, at first in a way in which it could not be read. -/
def shelterTypes : Table (List (Scalar × Raw)) :=
  [("Pet", [(.text "name", .text "Pet"), (.text "properties", .text "none")]),
    ("Owner", [(.text "name", .text "Owner")]),
    ("Pet", [(.text "name", .text "Pet"), (.text "description", .text "An animal.")])]

/-- A description with these types in a list. -/
def shelter : List (Scalar × Raw) :=
  [(.text "title", .text "Pets"),
    (.text "types", .list (shelterTypes.map fun object => .mapping object.2))]

/-- What is described by that. -/
def shelterService : Service where
  title := "Pets"
  majorVersion := 1
  sourcePath := none
  interfaces := []
  types := [("Pet", ⟨"Pet", ["An animal."], [], none⟩), ("Owner", ⟨"Owner", [], [], none⟩)]
  enums := []
  unions := []

/-- The first way of giving the type is passed over, and the type keeps the first place. -/
theorem shelter_read_alike :
    (∀ object ∈ shelterTypes, field? "name" object.2 = some (.text object.1)) ∧
      Service.ofRaw none (.mapping shelter) = .ok shelterService ∧
      ∀ value : Raw, value.GivesObjects shelterTypes →
        Service.ofRaw none (.mapping (Raw.insert (.text "types") value shelter)) =
          .ok shelterService := by
  have hnames : ∀ object ∈ shelterTypes, field? "name" object.2 = some (.text object.1) := by
    simp [shelterTypes, field?]
  have hread : Service.ofRaw none (.mapping shelter) = .ok shelterService := by cbv
  refine ⟨hnames, hread, fun value hvalue => ?_⟩
  rw [Service.ofRaw_eq_of_givesObjects (by decide) hnames rfl .listed hvalue, hread]

end ServiceManual
