import ServiceManual.Proofs.Raw.Reading
import ServiceManual.Service.Reading

/-!
# Where reading a service breaks off

Most of what can be wrong with a description is found as an issue.  Four shapes are not: a rule
whose identifier is a list or a mapping, an entity in a list that is no mapping, an entity in a list
whose name is no scalar, and metadata of an enum that are a scalar or have a key that is none.
Reading breaks off at these and nowhere else (`Service.isBroken_read`).
-/

namespace ServiceManual

open Raw Checked

variable {value part item : Raw} {name : String} {fields : List (Scalar × Raw)}

/-- A value is a mapping with a list that has this item in the field of this name. -/
def Raw.HasItem (value : Raw) (name : String) (item : Raw) : Prop :=
  ∃ list, value.FieldIs name list ∧ item ∈ list.items

/-- A value is no scalar. -/
def Raw.IsCompound : Raw → Prop
  | .scalar _ => False
  | _ => True

/-! ## Rules and what carries them -/

/-- The identifier of a rule is a list or a mapping. -/
def Rule.BreaksOff (value : Raw) : Prop :=
  ∃ id, value.FieldIs "id" id ∧ (id.kind = .list ∨ id.kind = .mapping)

/-- One of the rules of a member breaks off. -/
def Member.BreaksOff (value : Raw) : Prop :=
  ∃ rule, value.HasItem "rules" rule ∧ Rule.BreaksOff rule

/-- One of the parameters of a method breaks off. -/
def Method.BreaksOff (value : Raw) : Prop :=
  ∃ parameter, value.HasItem "parameters" parameter ∧ Member.BreaksOff parameter

/-- One of the methods of an interface breaks off. -/
def Interface.BreaksOff (value : Raw) : Prop :=
  ∃ method, value.HasItem "methods" method ∧ Method.BreaksOff method

/-- One of the properties of a type breaks off. -/
def ComplexType.BreaksOff (value : Raw) : Prop :=
  ∃ property, value.HasItem "properties" property ∧ Member.BreaksOff property

theorem Rule.not_isBroken_readUnknown (fields : List (Scalar × Raw)) :
    ¬ (Rule.readUnknown fields).IsBroken := by
  unfold Rule.readUnknown
  dsimp only
  split
  · simp
  · split <;> simp [not_isBroken_readText]

theorem Rule.not_isBroken_readKnown (kind : RuleKind) (fields : List (Scalar × Raw)) :
    ¬ (Rule.readKnown kind fields).IsBroken := by
  cases kind <;> simp [Rule.readKnown, not_isBroken_readText, not_isBroken_readInteger,
    not_isBroken_readNumber]

theorem Rule.isBroken_read : (Rule.read value).IsBroken ↔ Rule.BreaksOff value := by
  cases value with
  | mapping fields =>
      simp only [Rule.read, Rule.BreaksOff, fieldIs_mapping]
      split
      · rename_i items hid
        exact iff_of_true (isBroken_broken _) ⟨_, hid, .inl rfl⟩
      · rename_i entries hid
        exact iff_of_true (isBroken_broken _) ⟨_, hid, .inr rfl⟩
      · rename_i text hid
        refine iff_of_false ?_ (by simp [hid, Raw.kind, Scalar.kind])
        split <;> simp [Rule.not_isBroken_readKnown, Rule.not_isBroken_readUnknown]
      · rename_i hlist hmapping htext
        refine iff_of_false (by simp [Rule.not_isBroken_readUnknown]) ?_
        -- No other value is of a kind at which reading breaks off.
        rintro ⟨id, hid, hkind⟩
        cases id with
        | list items => exact hlist items hid
        | mapping entries => exact hmapping entries hid
        | scalar scalar => cases scalar <;> simp [Raw.kind, Scalar.kind] at hkind
        | set | pair => simp [Raw.kind] at hkind
  | scalar | list | set | pair => simp [Rule.read, Rule.BreaksOff, FieldIs]

/-- To go through the items of a field of a mapping is to go through what the value has there. -/
theorem exists_hasItem_iff {P : Raw → Prop} :
    (∃ fields, value = .mapping fields ∧ ∃ list, field? name fields = some list ∧
      ∃ item ∈ list.items, P item) ↔ ∃ item, value.HasItem name item ∧ P item := by
  constructor
  · rintro ⟨fields, rfl, list, hlist, item, hitem, h⟩
    exact ⟨item, ⟨list, fieldIs_mapping.mpr hlist, hitem⟩, h⟩
  · rintro ⟨item, ⟨list, ⟨fields, rfl, hlist⟩, hitem⟩, h⟩
    exact ⟨fields, rfl, list, hlist, item, hitem, h⟩

theorem ReferenceKind.not_isBroken_read (value : Raw) :
    ¬ (ReferenceKind.read value).IsBroken := by
  unfold ReferenceKind.read
  split <;> simp

theorem TypeReference.not_isBroken_read (value : Raw) :
    ¬ (TypeReference.read value).IsBroken := by
  simp [TypeReference.read, isBroken_readModel, ReferenceKind.not_isBroken_read,
    not_isBroken_readText, not_isBroken_readFlag]

theorem Member.isBroken_read {model : String} :
    (Member.read model value).IsBroken ↔ Member.BreaksOff value := by
  simp [Member.read, Member.BreaksOff, isBroken_readModel, isBroken_readList, Rule.isBroken_read,
    exists_hasItem_iff, not_isBroken_readText, not_isBroken_readFlag, not_isBroken_readParagraphs,
    TypeReference.not_isBroken_read]

theorem ReturnValue.not_isBroken_read (value : Raw) : ¬ (ReturnValue.read value).IsBroken := by
  simp [ReturnValue.read, isBroken_readModel, TypeReference.not_isBroken_read,
    not_isBroken_readParagraphs]

theorem Method.isBroken_read : (Method.read value).IsBroken ↔ Method.BreaksOff value := by
  simp [Method.read, Method.BreaksOff, isBroken_readModel, isBroken_readList, Member.isBroken_read,
    exists_hasItem_iff, not_isBroken_readText, not_isBroken_readParagraphs, isBroken_readNullable,
    ReturnValue.not_isBroken_read]

theorem Interface.isBroken_read : (Interface.read value).IsBroken ↔ Interface.BreaksOff value := by
  simp [Interface.read, Interface.BreaksOff, isBroken_readModel, isBroken_readList,
    Method.isBroken_read, exists_hasItem_iff, not_isBroken_readText, not_isBroken_readParagraphs]

theorem MapProperties.not_isBroken_read (value : Raw) :
    ¬ (MapProperties.read value).IsBroken := by
  simp [MapProperties.read, isBroken_readModel, TypeReference.not_isBroken_read]

theorem ComplexType.isBroken_read :
    (ComplexType.read value).IsBroken ↔ ComplexType.BreaksOff value := by
  simp [ComplexType.read, ComplexType.BreaksOff, isBroken_readModel, isBroken_readList,
    Member.isBroken_read, exists_hasItem_iff, not_isBroken_readText, not_isBroken_readParagraphs,
    isBroken_readNullable, MapProperties.not_isBroken_read]

theorem UnionType.not_isBroken_read (value : Raw) : ¬ (UnionType.read value).IsBroken := by
  simp [UnionType.read, isBroken_readModel, isBroken_readList, TypeReference.not_isBroken_read,
    not_isBroken_readText, not_isBroken_readParagraphs]

/-! ## Enums -/

/-- The metadata of an enum are a scalar other than a text or bytes, or a list with an entry whose
key is no scalar.  Metadata without contents are passed over. -/
def EnumType.MetadataBreakOff (metadata : Raw) : Prop :=
  metadata.isEmpty = false ∧
    ((∃ scalar, metadata = .scalar scalar ∧ scalar.kind ≠ .text ∧ scalar.kind ≠ .bytes) ∨
      ∃ items, metadata = .list items ∧ ∃ entry ∈ items, ∃ key, entry.FieldIs "key" key ∧
        key.IsCompound)

/-- An enum has such metadata, and no documentation in place of which they would not be read. -/
def EnumType.BreaksOff (value : Raw) : Prop :=
  ∃ metadata, value.FieldIs "meta" metadata ∧ EnumType.MetadataBreakOff metadata ∧
    ∀ docs, value.FieldIs "docs" docs → docs = .null

theorem exists_error_map {ε α β : Type} {x : Except ε α} {f : α → β} :
    (∃ error, x.map f = .error error) ↔ ∃ error, x = .error error := by
  cases x <;> simp [Except.map]

/-- Pairs are not found if there is an entry with a key that is no scalar. -/
theorem exists_error_metadataPairs {items : List Raw} :
    (∃ fault, metadataPairs items = .error fault) ↔
      ∃ entry ∈ items, ∃ key, entry.FieldIs "key" key ∧ key.IsCompound := by
  induction items with
  | nil => simp [metadataPairs]
  | cons item rest ih =>
      rw [List.exists_mem_cons_iff, ← ih]
      cases item with
      | mapping fields =>
          simp only [metadataPairs, fieldIs_mapping]
          cases hkey : field? "key" fields with
          | none => simp [exists_error_map]
          | some key => cases key <;> simp [exists_error_map, IsCompound]
      | scalar | list | set | pair => simp [metadataPairs, FieldIs]

theorem exists_error_metadataEntries {metadata : Raw} :
    (∃ fault, metadataEntries metadata = .error fault) ↔ EnumType.MetadataBreakOff metadata := by
  unfold metadataEntries EnumType.MetadataBreakOff
  cases hempty : metadata.isEmpty with
  | true => simp
  | false =>
      cases metadata with
      | scalar scalar => cases scalar <;> simp [Scalar.kind]
      | list items => simp [exists_error_map, exists_error_metadataPairs]
      | mapping | set | pair => simp

theorem EnumDocs.not_isBroken_read (value : Raw) : ¬ (EnumDocs.read value).IsBroken := by
  have hdescriptions : ∀ part, ¬ (readValueDescriptions part).IsBroken := by
    intro part
    unfold readValueDescriptions
    split <;> simp [isBroken_readTable, not_isBroken_readText]
  simp [EnumDocs.read, isBroken_readModel, isBroken_readNullable, not_isBroken_readText,
    hdescriptions]

theorem field?_without {other : String} (hother : other ≠ name) :
    field? name (without other fields) = field? name fields := by
  induction fields with
  | nil => rfl
  | cons entry rest ih =>
      rw [without] at ih
      by_cases hkey : entry.1 = .text other
      · simp [without, field?, hkey, hother, ih]
      · simp [without, field?, hkey, ih]

theorem given?_eq_none_iff :
    given? name fields = none ↔ ∀ part, field? name fields = some part → part = .null := by
  unfold given?
  split
  · rename_i hnull
    simp [hnull]
  · rename_i hother
    cases hfield : field? name fields with
    | none => simp
    | some part =>
        have hpart : part ≠ .null := by
          rintro rfl
          exact hother hfield
        simpa using hpart

/-- Metadata are not lifted if they break off and no documentation is given. -/
theorem exists_error_liftMetadata :
    (∃ fault, liftMetadata fields = .error fault) ↔ EnumType.BreaksOff (.mapping fields) := by
  simp only [liftMetadata, EnumType.BreaksOff, fieldIs_mapping]
  cases hmeta : field? "meta" fields with
  | none => simp
  | some metadata =>
      have hdocs : given? "docs" (without "meta" fields) = given? "docs" fields := by
        rw [given?, given?, field?_without (by decide)]
      simp only [hdocs, Option.some.injEq, exists_eq_left', ← given?_eq_none_iff]
      cases given? "docs" fields with
      | some docs => simp
      | none => simp only [exists_error_map, exists_error_metadataEntries, and_true]

theorem EnumType.isBroken_read : (EnumType.read value).IsBroken ↔ EnumType.BreaksOff value := by
  cases value with
  | mapping fields =>
      rw [← exists_error_liftMetadata, EnumType.read, readModel]
      cases liftMetadata fields with
      | error fault => simp
      | ok lifted =>
          simp [isBroken_readList, not_isBroken_readText, not_isBroken_readLiteral,
            isBroken_readNullable, EnumDocs.not_isBroken_read]
  | scalar | list | set | pair => simp [EnumType.read, readModel, EnumType.BreaksOff, FieldIs]

/-! ## Entities -/

/-- Entities in a list break off if one is no mapping or has a name that is no scalar.  Entities
that are found under their names break off where one of them does. -/
def Raw.EntitiesBreakOff (breaksOff : Raw → Prop) (value : Raw) : Prop :=
  (∃ items, value = .list items ∧ ∃ item ∈ items,
      (∀ fields, item ≠ .mapping fields) ∨ ∃ name, item.FieldIs "name" name ∧ name.IsCompound) ∨
    ∃ entries, keyedByName value = .ok (.mapping entries) ∧ ∃ entry ∈ entries, breaksOff entry.2

theorem exists_error_namedItems {items : List Raw} :
    (∃ fault, namedItems items = .error fault) ↔ ∃ item ∈ items,
      (∀ fields, item ≠ .mapping fields) ∨
        ∃ name, item.FieldIs "name" name ∧ name.IsCompound := by
  induction items with
  | nil => simp [namedItems]
  | cons item rest ih =>
      rw [List.exists_mem_cons_iff, ← ih]
      cases item with
      | mapping fields =>
          simp only [namedItems, fieldIs_mapping]
          cases hname : field? "name" fields with
          | none => simp [exists_error_map]
          | some name => cases name <;> simp [exists_error_map, IsCompound]
      | scalar | list | set | pair => simp [namedItems]

theorem exists_error_keyedByName :
    (∃ fault, keyedByName value = .error fault) ↔ ∃ items, value = .list items ∧ ∃ item ∈ items,
      (∀ fields, item ≠ .mapping fields) ∨
        ∃ name, item.FieldIs "name" name ∧ name.IsCompound := by
  cases value with
  | list items => simp [keyedByName, exists_error_map, exists_error_namedItems]
  | scalar scalar => cases scalar <;> simp [keyedByName]
  | mapping | set | pair => simp [keyedByName]

theorem isBroken_readEntities {α : Type} {read : Raw → Checked α} :
    (readEntities read value).IsBroken ↔
      value.EntitiesBreakOff fun part => (read part).IsBroken := by
  rw [Raw.EntitiesBreakOff, ← exists_error_keyedByName, readEntities]
  cases keyedByName value with
  | error fault => simp
  | ok keyed => simp [isBroken_readTable]

/-! ## Services -/

/-- A service breaks off in one of its interfaces, or in one of its tables. -/
def Service.BreaksOff (value : Raw) : Prop :=
  (∃ interface, value.HasItem "interfaces" interface ∧ Interface.BreaksOff interface) ∨
    (∃ types, value.FieldIs "types" types ∧ types.EntitiesBreakOff ComplexType.BreaksOff) ∨
    (∃ enums, value.FieldIs "enums" enums ∧ enums.EntitiesBreakOff EnumType.BreaksOff) ∨
    ∃ unions, value.FieldIs "unions" unions ∧ unions.EntitiesBreakOff fun _ => False

/-- Reading a service breaks off at these shapes and nowhere else. -/
theorem Service.isBroken_read : (Service.read value).IsBroken ↔ Service.BreaksOff value := by
  cases value with
  | mapping fields =>
      simp [Service.read, readModel, Service.BreaksOff, ← exists_hasItem_iff, or_assoc,
        not_isBroken_readText, not_isBroken_readInteger, isBroken_readNullable, isBroken_readList,
        isBroken_readEntities, Interface.isBroken_read, ComplexType.isBroken_read,
        EnumType.isBroken_read, UnionType.not_isBroken_read]
  | scalar | list | set | pair =>
      simp [Service.read, readModel, Service.BreaksOff, HasItem, FieldIs]

end ServiceManual
