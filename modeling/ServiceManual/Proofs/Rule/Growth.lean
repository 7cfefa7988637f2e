import ServiceManual.Proofs.Document.Rules
import ServiceManual.Proofs.Raw.Growth
import ServiceManual.Proofs.Rule

/-!
# Rules that grow

A rule grows when fields that it does not declare are added to it, and a list of rules when its
rules do and when foreign ones are put among them, rules with identifiers that are not known.  Such
a list is read again, and the same is shown of it (`Rule.follows_readList`).

Two things must not be added.  A rule of unknown kind is kept with all its fields, and it is refused
if one of their keys is no text or has no encoding.  And a rule whose identifier is given as the
bytes of a known one is of unknown kind, yet it is shown with the operand of that kind; so that
field counts as declared by it.
-/

namespace ServiceManual.Rule

open Raw Checked
open scoped Relator

variable {value grown : Raw} {fields more : List (Scalar × Raw)} {kind : RuleKind} {rule : Rule}

/-- The kind whose identifier these fields hold, whether as a text or as bytes. -/
def spelledKind? (fields : List (Scalar × Raw)) : Option RuleKind :=
  (field? "id" fields).bind fun id => (readText id).toOption.bind RuleKind.ofId?

/-- A rule declares its identifier, and the operand of the kind that it has the identifier of. -/
def schema (fields : List (Scalar × Raw)) : Schema :=
  ("id", Eq) :: (((spelledKind? fields).bind RuleKind.fieldName?).map fun name => (name, Eq)).toList

/-- The identifier selects a known kind. -/
def SelectsKind (fields : List (Scalar × Raw)) : Prop :=
  ∃ id kind, field? "id" fields = some (.text id) ∧ RuleKind.ofId? id = some kind

/-- A rule grows in its fields.  Those of a rule of unknown kind are all kept, so their keys have to
be texts with an encoding. -/
inductive Grows : Raw → Raw → Prop
  | same (value : Raw) : Grows value value
  | mapping {fields more : List (Scalar × Raw)} (hfields : (schema fields).FieldsGrow fields more)
      (hnamed : SelectsKind fields ∨ AreNamed (without "id" more)) :
      Grows (.mapping fields) (.mapping more)

/-- A rule of a kind that is not known: its identifier is another text. -/
def IsForeign (value : Raw) : Prop :=
  ∃ fields id, value = .mapping fields ∧ field? "id" fields = some (.text id) ∧
    RuleKind.ofId? id = none ∧ AreNamed (without "id" fields)

/-- Rules grow, and foreign ones are put anywhere among them. -/
inductive ListGrows : List Raw → List Raw → Prop
  | nil : ListGrows [] []
  | keep {rule grown : Raw} {rules more : List Raw} (hrule : Grows rule grown)
      (hrest : ListGrows rules more) : ListGrows (rule :: rules) (grown :: more)
  | insert {rule : Raw} {rules more : List Raw} (hrule : IsForeign rule)
      (hrest : ListGrows rules more) : ListGrows rules (rule :: more)

/-- The value of a field for rules grows. -/
inductive FieldGrows : Raw → Raw → Prop
  | same (value : Raw) : FieldGrows value value
  | list {rules more : List Raw} (hrules : ListGrows rules more) :
      FieldGrows (.list rules) (.list more)

theorem readKnown_congr (hoperand : ∀ name, kind.fieldName? = some name →
    field? name fields = field? name more) : readKnown kind fields = readKnown kind more := by
  cases kind with
  | uniqueItems => rfl
  | limit kind => simp only [readKnown, requiredField, hoperand kind.fieldName rfl]
  | compare comparison => simp only [readKnown, requiredField, hoperand "value" rfl]
  | pattern => simp only [readKnown, requiredField, hoperand "pattern" rfl]

theorem read_of_known {id : String} (hid : field? "id" fields = some (.text id))
    (hkind : RuleKind.ofId? id = some kind) :
    Rule.read (.mapping fields) = (readKnown kind fields).within (.key id) := by
  simp only [Rule.read, hid, hkind]

theorem read_of_unknown (hid : (∃ id, field? "id" fields = some (.text id) ∧
    RuleKind.ofId? id = none) ∨ ∃ bytes, field? "id" fields = some (.scalar (.bytes bytes))) :
    Rule.read (.mapping fields) = (readUnknown fields).within (.key "Unknown") := by
  rcases hid with ⟨id, hid, hkind⟩ | ⟨bytes, hid⟩
  · simp only [Rule.read, hid, hkind]
  · simp only [Rule.read, hid]

theorem lookup_schema {part : Raw} {id name : String} (hpart : field? "id" fields = some part)
    (hid : readText part = .valid id) (hkind : RuleKind.ofId? id = some kind)
    (hname : kind.fieldName? = some name) : (schema fields).lookup name = some Eq := by
  have hspelled : spelledKind? fields = some kind := by
    simp [spelledKind?, hpart, hid, toOption, hkind]
  simp only [schema, hspelled, Option.bind_some, hname, Option.map_some, Option.toList_some,
    List.lookup_cons, beq_self_eq_true]
  split <;> rfl

/-- What is shown of a rule of unknown kind is in fields that it declares. -/
theorem shown?_of_fieldsGrow {part : Raw} {id : String}
    (hfields : (schema fields).FieldsGrow fields more) (hpart : field? "id" fields = some part)
    (hid : readText part = .valid id) :
    shown? (.unknown id (without "id" fields)) = shown? (.unknown id (without "id" more)) := by
  cases hkind : RuleKind.ofId? id with
  | none => simp [shown?, hkind]
  | some kind =>
      cases hname : kind.fieldName? with
      | none => simp [shown?, hkind, hname]
      | some name =>
          have hlookup := lookup_schema hpart hid hkind hname
          simp [shown?, hkind, hname, (hfields.without "id").filter_eq hlookup]

/-- A rule that has grown is read, and the same is shown of it. -/
theorem follows_read : (Grows ⇒ Follows (InvImage Eq shown?)) Rule.read Rule.read := by
  intro value grown hgrows
  cases hgrows with
  | same value => exact follows_self fun _ => rfl
  | @mapping fields more hfields hnamed =>
      intro rule hread
      have hid : field? "id" fields = field? "id" more := hfields.field?_eq rfl
      obtain ⟨_, hmapping, hcases⟩ := read_cases hread
      obtain rfl := Raw.mapping.inj hmapping
      rcases hcases with ⟨id, kind, htext, hkind, hknown⟩ | ⟨hunknown, htag⟩
      · -- The operand is declared, so it is the same.
        have hoperand : ∀ name, kind.fieldName? = some name →
            field? name fields = field? name more :=
          fun name hname => hfields.field?_eq (lookup_schema htext rfl hkind hname)
        refine ⟨rule, ?_, rfl⟩
        rw [read_of_known (hid ▸ htext) hkind, ← readKnown_congr hoperand, hknown, within_valid]
      · obtain ⟨-, part, id, hpart, hspelled, rfl⟩ := readUnknown_eq_valid_iff.mp hunknown
        -- The identifier selects no kind, so the new fields are kept and must have named keys.
        have hkept : AreNamed (without "id" more) := by
          refine hnamed.resolve_left ?_
          rintro ⟨known, kind, hknown, hkind⟩
          rcases htag with ⟨other, hother, hnone⟩ | ⟨bytes, hbytes⟩
          · obtain rfl : other = known := by simpa using hother.symm.trans hknown
            exact absurd (hnone.symm.trans hkind) (by simp)
          · exact absurd (hbytes.symm.trans hknown) (by simp)
        have hmore : readUnknown more = .valid (.unknown id (without "id" more)) :=
          readUnknown_eq_valid_iff.mpr ⟨hkept, part, id, hid ▸ hpart, hspelled, rfl⟩
        refine ⟨.unknown id (without "id" more), ?_, shown?_of_fieldsGrow hfields hpart hspelled⟩
        rw [read_of_unknown (hid ▸ htag), hmore, within_valid]

/-- A foreign rule is read, and nothing is shown of it. -/
theorem IsForeign.exists_read (hforeign : IsForeign value) :
    ∃ rule, Rule.read value = .valid rule ∧ rule.shown? = none := by
  obtain ⟨fields, id, rfl, hid, hkind, hnamed⟩ := hforeign
  have hread : readUnknown fields = .valid (.unknown id (without "id" fields)) :=
    readUnknown_eq_valid_iff.mpr ⟨hnamed, .text id, id, hid, rfl, rfl⟩
  refine ⟨.unknown id (without "id" fields), ?_, by simp [shown?, hkind]⟩
  rw [read_of_unknown (.inl ⟨id, hid, hkind⟩), hread, within_valid]

/-- What is shown of rules. -/
abbrev shownOf : List Rule → List Rule :=
  List.filterMap shown?

theorem follows_readItems {rules more : List Raw} (hrules : ListGrows rules more)
    (first second : Nat) : Follows (InvImage Eq shownOf) (readItems Rule.read first rules)
      (readItems Rule.read second more) := by
  induction hrules generalizing first second with
  | nil => exact follows_valid rfl
  | keep hrule _ ih =>
      refine Follows.apply (Follows.map ?_ ((follows_read hrule).within _ _)) (ih _ _)
      intro rule counterpart hshown before after hrest
      have hhead : rule.shown? = counterpart.shown? := hshown
      have htail : shownOf before = shownOf after := hrest
      simp [InvImage, shownOf, List.filterMap_cons, hhead, htail]
  | insert hforeign _ ih =>
      -- The items behind a foreign rule have moved on by one position, which no model tells.
      intro before hbefore
      obtain ⟨rule, hread, hshown⟩ := hforeign.exists_read
      obtain ⟨after, hafter, hrest⟩ := ih first (second + 1) before hbefore
      refine ⟨rule :: after, by simp [readItems, hread, hafter], ?_⟩
      have htail : shownOf before = shownOf after := hrest
      simp [InvImage, shownOf, hshown, htail]

theorem follows_readList :
    (FieldGrows ⇒ Follows (InvImage Eq shownOf)) (readList Rule.read) (readList Rule.read) := by
  intro value grown hgrows
  cases hgrows with
  | same value => exact follows_self fun _ => rfl
  | list hrules => exact follows_readItems hrules 0 0

end ServiceManual.Rule
