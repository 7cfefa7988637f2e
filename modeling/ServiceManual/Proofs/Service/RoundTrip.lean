import Mathlib
import ServiceManual.Loading
import ServiceManual.Proofs.Rule
import ServiceManual.Proofs.Service.Parts

/-!
# Reading back what was written

A description may be given in several ways, and it is written in one: paragraphs as lists, entities
as mappings from their keys, the documentation of an enum in its place.  What was read from any
description is written so that it reads as the same service (`Service.ofRaw_write`).

There is one exception.  A rule whose identifier is given as bytes counts as one of unknown kind
even if the bytes encode the identifier of a known kind.  The identifier is written as a text, and
then it selects that kind (`described_byteTag_not_reads_back`).  All else that bytes can stand for
is the text that they encode, before and after.
-/

namespace ServiceManual

open Raw Checked

/-! ## Parts without rules -/

@[simp] theorem readText_text (text : String) : readText (.text text) = .valid text := rfl

@[simp] theorem readFlag_rawFlag (value : Bool) : readFlag (rawFlag value) = .valid value := rfl

@[simp] theorem readInteger_rawInteger (value : Int) :
    readInteger (rawInteger value) = .valid value := rfl

@[simp] theorem readLiteral_write (literal : Literal) :
    readLiteral literal.write = .valid literal := by
  cases literal <;> rfl

@[simp] theorem readParagraphs_rawTexts (texts : List String) :
    readParagraphs (rawTexts texts) = .valid texts :=
  readList_map_eq_valid_iff.mpr fun _ _ => rfl

@[simp] theorem TypeReference.read_write (ref : TypeReference) :
    TypeReference.read ref.write = .valid ref := by
  obtain ⟨kind, name, isArray⟩ := ref
  cases kind <;> rfl

theorem readNullable_rawNullable {α : Type} {read : Raw → Checked α} {write : α → Raw}
    {option : Option α} (hwrite : ∀ a, write a ≠ .null)
    (hread : ∀ a, option = some a → read (write a) = .valid a) :
    readNullable read (rawNullable write option) = .valid option := by
  cases option with
  | none => rfl
  | some a =>
      rw [rawNullable, readNullable]
      · rw [hread a rfl]
        rfl
      · exact hwrite a

theorem readTable_rawTable_iff {α : Type} {read : Raw → Checked α} {write : α → Raw}
    {table : Table α} (hnames : table.names.Nodup) :
    readTable read (rawTable write table) = .valid table ↔
      ∀ entry ∈ table, read (write entry.2) = .valid entry.2 := by
  have htable : rawTable write table =
      .mapping (table.map fun entry => (.text entry.1, write entry.2)) := by
    simp [rawTable, ofFields]
  rw [htable, readTable_map_eq_valid_iff hnames]

theorem ReturnValue.read_write (returns : ReturnValue) :
    ReturnValue.read returns.write = .valid returns := by
  simp [ReturnValue.read, ReturnValue.write, ofFields, readModel, requiredField, optionalField,
    field?]

theorem MapProperties.read_write (map : MapProperties) :
    MapProperties.read map.write = .valid map := by
  simp [MapProperties.read, MapProperties.write, ofFields, readModel, requiredField, field?]

@[simp] theorem readReturns_write (returns : Option ReturnValue) :
    readNullable ReturnValue.read (rawNullable ReturnValue.write returns) = .valid returns := by
  refine readNullable_rawNullable (fun returns => ?_) fun returns _ => returns.read_write
  simp [ReturnValue.write, ofFields]

@[simp] theorem readMap_write (map : Option MapProperties) :
    readNullable MapProperties.read (rawNullable MapProperties.write map) = .valid map := by
  refine readNullable_rawNullable (fun map => ?_) fun map _ => map.read_write
  simp [MapProperties.write, ofFields]

@[simp] theorem readNullable_text (text : Option String) :
    readNullable readText (rawNullable Raw.text text) = .valid text :=
  readNullable_rawNullable (fun text => by simp) fun _ _ => rfl

theorem UnionType.read_write (union : UnionType) : UnionType.read union.write = .valid union := by
  have hmembers : readList TypeReference.read (.list (union.members.map TypeReference.write)) =
      .valid union.members := readList_map_eq_valid_iff.mpr fun ref _ => ref.read_write
  simp [UnionType.read, UnionType.write, ofFields, readModel, requiredField, optionalField, field?,
    hmembers]

/-! ## Enums -/

theorem readValueDescriptions_rawTable {table : Table String} (hnames : table.names.Nodup) :
    readValueDescriptions (rawTable Raw.text table) = .valid table := by
  have hkeyed : keyedByText (rawTable Raw.text table) = rawTable Raw.text table := by
    have hkeys : (table.map fun entry => (Scalar.text entry.1, Raw.text entry.2)).Pairwise
        fun first second => Scalar.sameKey first.1 second.1 = false := by
      rw [Table.names, List.nodup_iff_pairwise_ne, List.pairwise_map] at hnames
      rw [List.pairwise_map]
      exact hnames.imp fun hdifferent => by simpa [Scalar.sameKey_text] using hdifferent
    simpa [keyedByText, rawTable, ofFields, Function.comp_def, Scalar.toText, ofAssignments]
      using assigned_eq_self hkeys
  have htextual : hasTextualKeys (rawTable Raw.text table) = true := by
    simp [hasTextualKeys, rawTable, ofFields, Scalar.hasText]
  rw [readValueDescriptions, htextual, if_pos rfl, hkeyed, readTable_rawTable_iff hnames]
  exact fun entry _ => rfl

theorem EnumDocs.read_write {docs : EnumDocs} (hnames : docs.valueDescriptions.names.Nodup) :
    EnumDocs.read docs.write = .valid docs := by
  simp [EnumDocs.read, EnumDocs.write, ofFields, readModel, optionalField, field?,
    readValueDescriptions_rawTable hnames]

theorem EnumType.read_write {enum : EnumType} (h : enum.IsTabled) :
    EnumType.read enum.write = .valid enum := by
  have hmembers : readList readLiteral (.list (enum.members.map Literal.write)) =
      .valid enum.members :=
    readList_map_eq_valid_iff.mpr fun literal _ => readLiteral_write literal
  have hdocs : readNullable EnumDocs.read (rawNullable EnumDocs.write enum.docs) =
      .valid enum.docs := by
    refine readNullable_rawNullable (fun docs => ?_) fun docs hdocs => ?_
    · simp [EnumDocs.write, ofFields]
    · exact EnumDocs.read_write (h docs hdocs)
  simp [EnumType.read, EnumType.write, ofFields, readModel, liftMetadata, requiredField,
    optionalField, field?, hmembers, hdocs]

/-! ## Parts with rules -/

theorem Member.read_write_iff (model : String) (member : Member) :
    Member.read model member.write = .valid member ↔
      ∀ rule ∈ member.rules, Rule.read rule.write = .valid rule := by
  obtain ⟨name, required, description, rules, value⟩ := member
  rw [← readList_map_eq_valid_iff]
  simp [Member.read, Member.write, ofFields, readModel, requiredField, optionalField, field?,
    within_eq_valid_iff]

theorem Method.read_write_iff (method : Method) : Method.read method.write = .valid method ↔
    ∀ parameter ∈ method.parameters,
      Member.read "Parameter" parameter.write = .valid parameter := by
  obtain ⟨name, description, parameters, returns⟩ := method
  rw [← readList_map_eq_valid_iff]
  simp [Method.read, Method.write, ofFields, readModel, requiredField, optionalField, field?,
    within_eq_valid_iff]

theorem Interface.read_write_iff (interface : Interface) :
    Interface.read interface.write = .valid interface ↔
      ∀ method ∈ interface.methods, Method.read method.write = .valid method := by
  obtain ⟨name, description, methods⟩ := interface
  rw [← readList_map_eq_valid_iff]
  simp [Interface.read, Interface.write, ofFields, readModel, requiredField, optionalField, field?,
    within_eq_valid_iff]

theorem ComplexType.read_write_iff (type : ComplexType) :
    ComplexType.read type.write = .valid type ↔
      ∀ property ∈ type.properties, Member.read "Property" property.write = .valid property := by
  obtain ⟨name, description, properties, map⟩ := type
  rw [← readList_map_eq_valid_iff]
  simp [ComplexType.read, ComplexType.write, ofFields, readModel, requiredField, optionalField,
    field?, within_eq_valid_iff]

/-! ## Tables of entities -/

theorem keyedByName_rawTable {α : Type} {write : α → Raw} (table : Table α)
    (hname : ∀ entity, ∃ name, (write entity).FieldIs "name" name) :
    keyedByName (rawTable write table) = .ok (rawTable write table) := by
  have hnamed : ∀ entry : String × α,
      namedByKey (Scalar.text entry.1, write entry.2) = (Scalar.text entry.1, write entry.2) := by
    intro entry
    obtain ⟨name, fields, hfields, hfield⟩ := hname entry.2
    rw [hfields, namedByKey, hfield]
  simp [rawTable, ofFields, keyedByName, hnamed]

theorem readEntities_rawTable_iff {α : Type} {read : Raw → Checked α} {write : α → Raw}
    {table : Table α} (hname : ∀ entity, ∃ name, (write entity).FieldIs "name" name)
    (hnames : table.names.Nodup) :
    readEntities read (rawTable write table) = .valid table ↔
      ∀ entry ∈ table, read (write entry.2) = .valid entry.2 := by
  rw [readEntities, keyedByName_rawTable table hname]
  exact readTable_rawTable_iff hnames

/-! ## Services -/

/-- A service reads back exactly when all its rules do. -/
theorem Service.read_write_iff {service : Service} (h : service.IsTabled) :
    Service.read service.write = .valid service ↔
      ∀ rule ∈ service.rules, Rule.read rule.write = .valid rule := by
  -- Enums and unions hold no rules, so they read back in any case.
  have henums : readEntities EnumType.read (rawTable EnumType.write service.enums) =
      .valid service.enums :=
    (readEntities_rawTable_iff (fun enum => ⟨_, _, rfl, rfl⟩) h.enums).mpr
      fun entry hentry => EnumType.read_write (h.descriptions entry hentry)
  have hunions : readEntities UnionType.read (rawTable UnionType.write service.unions) =
      .valid service.unions :=
    (readEntities_rawTable_iff (fun union => ⟨_, _, rfl, rfl⟩) h.unions).mpr
      fun entry _ => entry.2.read_write
  have hfields : Service.read service.write = .valid service ↔
      readList Interface.read (.list (service.interfaces.map Interface.write)) =
          .valid service.interfaces ∧
        readEntities ComplexType.read (rawTable ComplexType.write service.types) =
          .valid service.types := by
    obtain ⟨title, version, source, interfaces, types, enums, unions⟩ := service
    simp [Service.read, Service.write, ofFields, readModel, requiredField, optionalField, field?,
      henums, hunions, within_eq_valid_iff, apply_eq_valid_iff]
  have htypes : readEntities ComplexType.read (rawTable ComplexType.write service.types) =
      .valid service.types ↔
        ∀ entry ∈ service.types, ComplexType.read entry.2.write = .valid entry.2 :=
    readEntities_rawTable_iff (fun type => ⟨_, _, rfl, rfl⟩) h.types
  rw [hfields, readList_map_eq_valid_iff, htypes]
  simp only [Interface.read_write_iff, Method.read_write_iff, ComplexType.read_write_iff,
    Member.read_write_iff, Service.rules, Service.members, List.forall_mem_flatMap,
    List.forall_mem_append]

theorem Service.ofRaw_eq_ok_iff {path : Option Path} {value : Raw} {service : Service} :
    Service.ofRaw path value = .ok service ↔ Service.read value = .valid service := by
  unfold Service.ofRaw
  split <;> simp_all

/-- **What was read reads back.**  If a service is read from a value, then reading it again from
what it is written as gives it back if and only if every rule of it has the identifier of its own
kind.  It has, unless the identifier of a known kind is given as bytes somewhere in the value. -/
theorem Service.ofRaw_write {path : Option Path} {value : Raw} {service : Service}
    (hread : Service.ofRaw path value = .ok service) (other : Option Path) :
    (Service.ofRaw other service.write = .ok service ↔ ∀ rule ∈ service.rules, rule.IsTagged) ∧
      ((∀ part, value.Holds part → ¬ Rule.HasByteTag part) →
        Service.ofRaw other service.write = .ok service) := by
  rw [Service.ofRaw_eq_ok_iff] at hread
  have hback : Service.ofRaw other service.write = .ok service ↔
      ∀ rule ∈ service.rules, rule.IsTagged := by
    rw [Service.ofRaw_eq_ok_iff, Service.read_write_iff (Service.isTabled_of_read hread)]
    refine forall₂_congr fun rule hrule => Rule.read_write_iff ?_
    obtain ⟨part, -, hpart⟩ := Service.exists_part_of_mem_rules hread hrule
    exact Rule.isWellNamed_of_read hpart
  refine ⟨hback, fun hbytes => hback.mpr fun rule hrule => ?_⟩
  obtain ⟨part, hholds, hpart⟩ := Service.exists_part_of_mem_rules hread hrule
  exact Rule.isTagged_of_read hpart (hbytes part hholds)

/-- A description that takes some freedoms of the format, of a parameter with this rule. -/
def describing (rule : Raw) : Raw :=
  .ofFields [("title", .text "Pets"),
    ("interfaces", .list [.ofFields [("name", .text "pet"),
      ("methods", .list [.ofFields [("name", .text "feed"),
        ("parameters", .list [.ofFields [("name", .text "meals"),
          ("value", .ofFields [("type_name", .text "Meal"), ("is_array", rawInteger 1)]),
          ("rules", .list [rule])]])]])]]),
    ("types", .list [.ofFields [("name", .text "Meal"), ("description", .text "Food.")]]),
    ("enums", .ofFields [("Size", .ofFields [("members", .list [rawInteger 1]),
      ("meta", .list [.ofFields [("key", .text enumValueDescriptionsKey),
        ("value", .mapping [(.flag true, .text "Small.")])]])])])]

/-- What is described by that. -/
def described (rule : Rule) : Service where
  title := "Pets"
  majorVersion := 1
  sourcePath := none
  interfaces := [⟨"pet", [],
    [⟨"feed", [], [⟨"meals", false, [], [rule], ⟨.complex, "Meal", true⟩⟩], none⟩]⟩]
  types := [("Meal", ⟨"Meal", ["Food."], [], none⟩)]
  enums := [("Size", ⟨"Size", [.integer 1], some ⟨none, [("True", "Small.")]⟩⟩)]
  unions := []

/-- A rule of unknown kind reads back with all the rest. -/
theorem described_reads_back :
    Service.ofRaw none (describing (.ofFields [("id", .text "ArraySum"), ("max", rawInteger 9)])) =
        .ok (described (.unknown "ArraySum" [(.text "max", rawInteger 9)])) ∧
      Service.ofRaw none (described (.unknown "ArraySum" [(.text "max", rawInteger 9)])).write =
        .ok (described (.unknown "ArraySum" [(.text "max", rawInteger 9)])) := by
  have hread : Service.ofRaw none
      (describing (.ofFields [("id", .text "ArraySum"), ("max", rawInteger 9)])) =
        .ok (described (.unknown "ArraySum" [(.text "max", rawInteger 9)])) := rfl
  refine ⟨hread, (Service.ofRaw_write hread none).2 fun part hpart => ?_⟩
  -- There are no bytes in the description at all.
  rintro ⟨bytes, kind, hid, -⟩
  have hbytes := hpart.trans (holds_of_fieldIs hid)
  simp [describing, ofFields, rawInteger] at hbytes

/-- The identifier of a known kind as bytes. -/
def byteTag : Raw := .scalar (.bytes (RuleKind.limit .mostItems).id.toUTF8.toList)

/-- A rule with such an identifier is kept as one of unknown kind, and does not read back. -/
theorem described_byteTag_not_reads_back :
    Service.ofRaw none (describing (.ofFields [("id", byteTag)])) =
        .ok (described (.unknown "ArrayMaxItems" [])) ∧
      Service.ofRaw none (described (.unknown "ArrayMaxItems" [])).write ≠
        .ok (described (.unknown "ArrayMaxItems" [])) := by
  have hread : Service.read (describing (.ofFields [("id", byteTag)])) =
      .valid (described (.unknown "ArrayMaxItems" [])) := by cbv
  refine ⟨Service.ofRaw_eq_ok_iff.mpr hread, fun hback => ?_⟩
  rw [Service.ofRaw_eq_ok_iff, Service.read_write_iff (Service.isTabled_of_read hread)] at hback
  have hrule := hback (.unknown "ArrayMaxItems" []) List.mem_cons_self
  have hnamed : (Rule.unknown "ArrayMaxItems" []).IsWellNamed := by
    intro entry hentry
    cases hentry
  rw [Rule.read_write_unknown_iff hnamed] at hrule
  exact absurd hrule (by decide)

end ServiceManual
