import Mathlib.Logic.Relation
import ServiceManual.Proofs.Raw.Reading
import ServiceManual.Service.Reading

/-!
# Where the rules of a service come from

A service is read from a value part by part, and each of its rules is read from one of the value's
parts (`Service.exists_part_of_mem_rules`).  The tables of a service have one entry for each name
(`Service.isTabled_of_read`).
-/

namespace ServiceManual

open Raw Checked

/-! ## Parts of values -/

namespace Raw

variable {value part : Raw} {name other : String} {fields : List (Scalar × Raw)}

/-- What can be read apart in a value: the items of a list, the values of a mapping. -/
def parts : Raw → List Raw
  | .mapping entries => entries.map Prod.snd
  | value => value.items

/-- A value holds itself, its parts, and what these hold. -/
def Holds : Raw → Raw → Prop :=
  Relation.ReflTransGen fun value part => part ∈ value.parts

theorem mem_parts_of_mem_items (h : part ∈ value.items) : part ∈ value.parts := by
  cases value with
  | mapping entries => cases h
  | scalar | list | set | pair => exact h

theorem mem_parts_of_field? (h : field? name fields = some part) :
    part ∈ (mapping fields).parts := by
  induction fields with
  | nil => cases h
  | cons entry rest ih =>
      simp only [field?] at h
      split at h
      · obtain rfl := Option.some.inj h
        exact List.mem_cons_self
      · exact List.mem_cons_of_mem _ (ih h)

theorem holds_of_fieldIs (h : value.FieldIs name part) : value.Holds part := by
  obtain ⟨fields, rfl, hfield⟩ := h
  exact .single (mem_parts_of_field? hfield)

theorem Holds.trans {inner : Raw} (hpart : value.Holds part) (hinner : part.Holds inner) :
    value.Holds inner :=
  Relation.ReflTransGen.trans hpart hinner

theorem Holds.of_part (hpart : part ∈ value.parts) {inner : Raw} (h : part.Holds inner) :
    value.Holds inner :=
  .head hpart h

theorem holds_iff : value.Holds part ↔ part = value ∨ ∃ inner ∈ value.parts, inner.Holds part := by
  rw [Holds, Relation.ReflTransGen.cases_head_iff, eq_comm]

@[simp] theorem holds_scalar_iff {scalar : Scalar} :
    (Raw.scalar scalar).Holds part ↔ part = .scalar scalar := by
  rw [holds_iff]
  simp [parts, items]

@[simp] theorem holds_list_iff {items : List Raw} :
    (Raw.list items).Holds part ↔ part = .list items ∨ ∃ item ∈ items, item.Holds part :=
  holds_iff

@[simp] theorem holds_mapping_iff : (Raw.mapping fields).Holds part ↔
    part = .mapping fields ∨ ∃ field ∈ fields, field.2.Holds part := by
  rw [holds_iff, parts]
  simp only [List.mem_map, exists_exists_and_eq_and]

theorem field?_append_of_ne (hother : other ≠ name) (value : Raw) :
    field? name (fields ++ [(.text other, value)]) = field? name fields := by
  induction fields with
  | nil => simp [field?, hother]
  | cons entry rest ih => simp only [List.cons_append, field?, ih]

theorem field?_append_self (hnone : field? name fields = none) (value : Raw) :
    field? name (fields ++ [(.text name, value)]) = some value := by
  induction fields with
  | nil => simp
  | cons entry rest ih =>
      simp only [field?] at hnone
      split at hnone
      · cases hnone
      · rename_i hkey
        simp only [List.cons_append, field?, hkey, if_false, ih hnone]

theorem exists_item_of_listField {α : Type} {read : Raw → Checked α} {models : List α} {model : α}
    (h : optionalField name [] (readList read) fields = .valid models) (hmodel : model ∈ models) :
    ∃ list, field? name fields = some list ∧ ∃ item ∈ list.items, read item = .valid model := by
  rcases optionalField_eq_valid_iff.mp h with ⟨-, rfl⟩ | ⟨list, hlist, hread⟩
  · cases hmodel
  · exact ⟨list, hlist, exists_item_of_readList hread hmodel⟩

theorem holds_item {list item : Raw} (hlist : field? name fields = some list)
    (hitem : item ∈ list.items) : (mapping fields).Holds item :=
  .of_part (mem_parts_of_field? hlist) (.single (mem_parts_of_mem_items hitem))

theorem exists_part_of_listField {α : Type} {read : Raw → Checked α} {models : List α} {model : α}
    (h : optionalField name [] (readList read) fields = .valid models) (hmodel : model ∈ models) :
    ∃ part, (mapping fields).Holds part ∧ read part = .valid model := by
  obtain ⟨list, hlist, item, hitem, hread⟩ := exists_item_of_listField h hmodel
  exact ⟨item, holds_item hlist hitem, hread⟩

end Raw

/-! ## Rules -/

variable {value : Raw} {rule : Rule}

theorem Member.exists_part_of_mem_rules {model : String} {member : Member}
    (h : Member.read model value = .valid member) (hrule : rule ∈ member.rules) :
    ∃ part, value.Holds part ∧ Rule.read part = .valid rule := by
  simp only [Member.read, readModel_eq_valid_iff, map_eq, seq_eq, apply_eq_valid_iff,
    map_eq_valid_iff] at h
  obtain ⟨fields, rfl, _, _, ⟨_, _, ⟨_, _, ⟨_, _, ⟨_, -, rfl⟩, -, rfl⟩, -, rfl⟩, hrules, rfl⟩, -,
    rfl⟩ := h
  exact exists_part_of_listField hrules hrule

theorem Method.exists_part_of_mem_parameters {method : Method} {parameter : Member}
    (h : Method.read value = .valid method) (hparameter : parameter ∈ method.parameters) :
    ∃ part, value.Holds part ∧ Member.read "Parameter" part = .valid parameter := by
  simp only [Method.read, readModel_eq_valid_iff, map_eq, seq_eq, apply_eq_valid_iff,
    map_eq_valid_iff] at h
  obtain ⟨fields, rfl, _, _, ⟨_, _, ⟨_, _, ⟨_, -, rfl⟩, -, rfl⟩, hparameters, rfl⟩, -, rfl⟩ := h
  exact exists_part_of_listField hparameters hparameter

theorem Interface.exists_part_of_mem_methods {interface : Interface} {method : Method}
    (h : Interface.read value = .valid interface) (hmethod : method ∈ interface.methods) :
    ∃ part, value.Holds part ∧ Method.read part = .valid method := by
  simp only [Interface.read, readModel_eq_valid_iff, map_eq, seq_eq, apply_eq_valid_iff,
    map_eq_valid_iff] at h
  obtain ⟨fields, rfl, _, _, ⟨_, _, ⟨_, -, rfl⟩, -, rfl⟩, hmethods, rfl⟩ := h
  exact exists_part_of_listField hmethods hmethod

theorem ComplexType.exists_field_of_mem_properties {type : ComplexType} {property : Member}
    (h : ComplexType.read value = .valid type) (hproperty : property ∈ type.properties) :
    ∃ fields list, value = .mapping fields ∧ field? "properties" fields = some list ∧
      ∃ item ∈ list.items, Member.read "Property" item = .valid property := by
  simp only [ComplexType.read, readModel_eq_valid_iff, map_eq, seq_eq, apply_eq_valid_iff,
    map_eq_valid_iff] at h
  obtain ⟨fields, rfl, _, _, ⟨_, _, ⟨_, _, ⟨_, -, rfl⟩, -, rfl⟩, hproperties, rfl⟩, -, rfl⟩ := h
  obtain ⟨list, hlist, hitem⟩ := exists_item_of_listField hproperties hproperty
  exact ⟨fields, list, rfl, hlist, hitem⟩

/-! ## Entities -/

/-- A list of named things has a name for its first item, which is a mapping, and for the others. -/
theorem namedItems_cons_eq_ok_iff {item : Raw} {rest : List Raw} {entries : List (Scalar × Raw)} :
    namedItems (item :: rest) = .ok entries ↔ ∃ fields key more, item = .mapping fields ∧
      (field? "name" fields).getD .null = .scalar key ∧ namedItems rest = .ok more ∧
      (key, item) :: more = entries := by
  cases item with
  | mapping fields =>
      simp only [namedItems]
      cases hkey : (field? "name" fields).getD .null with
      | scalar key => cases namedItems rest <;> simp [hkey, Except.map]
      | list | mapping | set | pair => simp [hkey]
  | scalar | list | set | pair => simp [namedItems]

theorem map_snd_of_namedItems {items : List Raw} {entries : List (Scalar × Raw)}
    (h : namedItems items = .ok entries) : entries.map Prod.snd = items := by
  induction items generalizing entries with
  | nil =>
      obtain rfl := Except.ok.inj h
      rfl
  | cons item rest ih =>
      obtain ⟨fields, key, more, -, -, hrest, rfl⟩ := namedItems_cons_eq_ok_iff.mp h
      rw [List.map_cons, ih hrest]

/-- An entity is read from a part, or from a part that its key has been put into as its name. -/
def Raw.Lends (value part : Raw) : Prop :=
  part ∈ value.parts ∨ ∃ fields key, .mapping fields ∈ value.parts ∧
    part = .mapping (fields ++ [(.text "name", .scalar key)])

theorem lends_of_keyedByName {entries : List (Scalar × Raw)} {entry : Scalar × Raw}
    (h : keyedByName value = .ok (.mapping entries)) (hentry : entry ∈ entries) :
    value.Lends entry.2 := by
  cases value with
  | list items =>
      cases hitems : namedItems items with
      | error fault => simp [keyedByName, hitems, Except.map] at h
      | ok named =>
          obtain rfl : ofAssignments named = entries := by
            simpa [keyedByName, hitems, Except.map] using h
          have hvalue := mem_values_of_assigned (List.mem_map_of_mem hentry)
          rw [map_snd_of_namedItems hitems] at hvalue
          exact .inl hvalue
  | mapping given =>
      obtain rfl : given.map namedByKey = entries := by simpa [keyedByName] using h
      obtain ⟨⟨key, part⟩, hpart, rfl⟩ := List.mem_map.mp hentry
      have hmem : part ∈ (mapping given).parts := List.mem_map_of_mem hpart
      cases part with
      | mapping fields =>
          -- The entity has a name of its own, or the key is put there.
          simp only [namedByKey]
          split
          · exact .inl hmem
          · exact .inr ⟨fields, key, hmem, rfl⟩
      | scalar | list | set | pair => exact .inl hmem
  | scalar value => cases value <;> simp_all [keyedByName]
  | set | pair => simp [keyedByName] at h

theorem exists_lent_of_readEntities {α : Type} {read : Raw → Checked α} {table : Table α}
    {entry : String × α} (h : readEntities read value = .valid table) (hentry : entry ∈ table) :
    ∃ part, value.Lends part ∧ read part = .valid entry.2 := by
  unfold readEntities at h
  split at h
  · cases h
  · rename_i keyed hkeyed
    obtain ⟨entries, given, rfl, hgiven, hread⟩ := exists_entry_of_readTable h hentry
    exact ⟨given.2, lends_of_keyedByName hkeyed hgiven, hread⟩

theorem nodup_names_of_readEntities {α : Type} {read : Raw → Checked α} {table : Table α}
    (h : readEntities read value = .valid table) : table.names.Nodup := by
  unfold readEntities at h
  split at h
  · cases h
  · exact nodup_names_of_readTable h

theorem exists_part_of_type {table : Table ComplexType} {entry : String × ComplexType}
    {property : Member} (h : readEntities ComplexType.read value = .valid table)
    (hentry : entry ∈ table) (hproperty : property ∈ entry.2.properties) :
    ∃ part, value.Holds part ∧ Member.read "Property" part = .valid property := by
  obtain ⟨part, hpart, hread⟩ := exists_lent_of_readEntities h hentry
  obtain ⟨fields, list, rfl, hlist, item, hitem, hread⟩ :=
    ComplexType.exists_field_of_mem_properties hread hproperty
  refine ⟨item, ?_, hread⟩
  rcases hpart with hpart | ⟨given, key, hpart, hgiven⟩
  · exact .of_part hpart (holds_item hlist hitem)
  · -- The properties stood there before the name was put in.
    obtain rfl := Raw.mapping.inj hgiven
    rw [field?_append_of_ne (by decide)] at hlist
    exact .of_part hpart (holds_item hlist hitem)

/-! ## Services -/

/-- The members of a service that carry rules: parameters of methods and properties of types. -/
def Service.members (service : Service) : List Member :=
  (service.interfaces.flatMap fun interface => interface.methods.flatMap Method.parameters) ++
    service.types.flatMap fun entry => entry.2.properties

/-- All rules of a service. -/
def Service.rules (service : Service) : List Rule :=
  service.members.flatMap Member.rules

/-- The descriptions of an enum's values are for different texts. -/
def EnumType.IsTabled (enum : EnumType) : Prop :=
  ∀ docs, enum.docs = some docs → docs.valueDescriptions.names.Nodup

/-- The tables of a service have one entry for each name. -/
structure Service.IsTabled (service : Service) : Prop where
  types : service.types.names.Nodup
  enums : service.enums.names.Nodup
  unions : service.unions.names.Nodup
  descriptions : ∀ entry ∈ service.enums, entry.2.IsTabled

/-- What is read where null may stand is read unless it is null. -/
theorem exists_read_of_nullableField {α : Type} {read : Raw → Checked α} {name : String}
    {fields : List (Scalar × Raw)} {a : α}
    (h : optionalField name none (readNullable read) fields = .valid (some a)) :
    ∃ part, read part = .valid a := by
  rcases optionalField_eq_valid_iff.mp h with ⟨-, hnone⟩ | ⟨part, -, hread⟩
  · cases hnone
  · unfold readNullable at hread
    split at hread
    · cases hread
    · obtain ⟨other, hother, hsome⟩ := map_eq_valid_iff.mp hread
      obtain rfl := Option.some.inj hsome
      exact ⟨_, hother⟩

theorem EnumDocs.nodup_names_of_read {docs : EnumDocs} (h : EnumDocs.read value = .valid docs) :
    docs.valueDescriptions.names.Nodup := by
  simp only [EnumDocs.read, readModel_eq_valid_iff, map_eq, seq_eq, apply_eq_valid_iff,
    map_eq_valid_iff] at h
  obtain ⟨fields, rfl, _, table, ⟨_, -, rfl⟩, htable, rfl⟩ := h
  rcases optionalField_eq_valid_iff.mp htable with ⟨-, rfl⟩ | ⟨part, -, hread⟩
  · exact List.nodup_nil
  · unfold readValueDescriptions at hread
    split at hread
    · exact nodup_names_of_readTable hread
    · cases hread

theorem EnumType.isTabled_of_read {enum : EnumType} (h : EnumType.read value = .valid enum) :
    enum.IsTabled := by
  rw [EnumType.read, readModel_eq_valid_iff] at h
  obtain ⟨given, rfl, h⟩ := h
  split at h
  · cases h
  · rename_i fields _
    simp only [map_eq, seq_eq, apply_eq_valid_iff, map_eq_valid_iff] at h
    obtain ⟨_, docs, ⟨_, _, ⟨_, -, rfl⟩, -, rfl⟩, hdocs, rfl⟩ := h
    rintro some rfl
    obtain ⟨part, hpart⟩ := exists_read_of_nullableField hdocs
    exact EnumDocs.nodup_names_of_read hpart

theorem Service.read_eq_valid_iff {service : Service} : Service.read value = .valid service ↔
    ∃ fields, value = .mapping fields ∧
      requiredField "title" readText fields = .valid service.title ∧
      optionalField "major_version" 1 readInteger fields = .valid service.majorVersion ∧
      optionalField "source_path" none (readNullable readText) fields = .valid service.sourcePath ∧
      optionalField "interfaces" [] (readList Interface.read) fields =
        .valid service.interfaces ∧
      optionalField "types" [] (readEntities ComplexType.read) fields = .valid service.types ∧
      optionalField "enums" [] (readEntities EnumType.read) fields = .valid service.enums ∧
      optionalField "unions" [] (readEntities UnionType.read) fields = .valid service.unions := by
  obtain ⟨title, version, source, interfaces, types, enums, unions⟩ := service
  simp only [Service.read, readModel_eq_valid_iff, map_eq, seq_eq, apply_eq_valid_iff,
    map_eq_valid_iff]
  refine exists_congr fun fields => and_congr_right fun _ => ?_
  constructor
  · rintro ⟨_, _, ⟨_, _, ⟨_, _, ⟨_, _, ⟨_, _, ⟨_, _, ⟨_, htitle, rfl⟩, hversion, rfl⟩, hsource,
      rfl⟩, hinterfaces, rfl⟩, htypes, rfl⟩, henums, rfl⟩, hunions, h⟩
    obtain ⟨rfl, rfl, rfl, rfl, rfl, rfl, rfl⟩ := Service.mk.inj h
    exact ⟨htitle, hversion, hsource, hinterfaces, htypes, henums, hunions⟩
  · rintro ⟨htitle, hversion, hsource, hinterfaces, htypes, henums, hunions⟩
    exact ⟨_, _, ⟨_, _, ⟨_, _, ⟨_, _, ⟨_, _, ⟨_, _, ⟨_, htitle, rfl⟩, hversion, rfl⟩, hsource,
      rfl⟩, hinterfaces, rfl⟩, htypes, rfl⟩, henums, rfl⟩, hunions, rfl⟩

theorem nodup_names_of_tableField {α : Type} {read : Raw → Checked α} {name : String}
    {fields : List (Scalar × Raw)} {table : Table α}
    (h : optionalField name [] (readEntities read) fields = .valid table) :
    table.names.Nodup := by
  rcases optionalField_eq_valid_iff.mp h with ⟨-, rfl⟩ | ⟨part, -, hread⟩
  · exact List.nodup_nil
  · exact nodup_names_of_readEntities hread

theorem Service.isTabled_of_read {service : Service} (h : Service.read value = .valid service) :
    service.IsTabled := by
  obtain ⟨fields, rfl, -, -, -, -, htypes, henums, hunions⟩ := Service.read_eq_valid_iff.mp h
  refine ⟨nodup_names_of_tableField htypes, nodup_names_of_tableField henums,
    nodup_names_of_tableField hunions, fun entry hentry => ?_⟩
  rcases optionalField_eq_valid_iff.mp henums with ⟨-, hnone⟩ | ⟨part, -, hread⟩
  · simp [← hnone] at hentry
  · obtain ⟨part, -, hentity⟩ := exists_lent_of_readEntities hread hentry
    exact EnumType.isTabled_of_read hentity

/-- Every rule of a service that was read was read from a part of the value. -/
theorem Service.exists_part_of_mem_rules {service : Service}
    (h : Service.read value = .valid service) (hrule : rule ∈ service.rules) :
    ∃ part, value.Holds part ∧ Rule.read part = .valid rule := by
  obtain ⟨fields, rfl, -, -, -, hinterfaces, htypes, -, -⟩ := Service.read_eq_valid_iff.mp h
  obtain ⟨member, hmember, hrule⟩ := List.mem_flatMap.mp hrule
  -- A member was read from some part, as a parameter or as a property.
  have hpart : ∃ model part, (mapping fields).Holds part ∧
      Member.read model part = .valid member := by
    rcases List.mem_append.mp hmember with hparameter | hproperty
    · obtain ⟨interface, hinterface, hmethods⟩ := List.mem_flatMap.mp hparameter
      obtain ⟨method, hmethod, hparameter⟩ := List.mem_flatMap.mp hmethods
      obtain ⟨outer, houter, hread⟩ := exists_part_of_listField hinterfaces hinterface
      obtain ⟨inner, hinner, hread⟩ := Interface.exists_part_of_mem_methods hread hmethod
      obtain ⟨part, hpart, hread⟩ := Method.exists_part_of_mem_parameters hread hparameter
      exact ⟨_, part, (houter.trans hinner).trans hpart, hread⟩
    · obtain ⟨entry, hentry, hproperty⟩ := List.mem_flatMap.mp hproperty
      rcases optionalField_eq_valid_iff.mp htypes with ⟨-, hnone⟩ | ⟨table, htable, hread⟩
      · simp [← hnone] at hentry
      · obtain ⟨part, hpart, hread⟩ := exists_part_of_type hread hentry hproperty
        exact ⟨_, part, .of_part (mem_parts_of_field? htable) hpart, hread⟩
  obtain ⟨model, part, hpart, hread⟩ := hpart
  obtain ⟨inner, hinner, hread⟩ := Member.exists_part_of_mem_rules hread hrule
  exact ⟨inner, hpart.trans hinner, hread⟩

end ServiceManual
