import ServiceManual.Proofs.Raw.Reading
import ServiceManual.Service.Writing

/-!
# Rules and their identifiers

The identifier of a rule selects its kind, if it is given as a text.  Given as bytes it selects
none, and yet the rule of unknown kind that comes out has the text that the bytes encode for its
identifier.  That is the only way in which a rule can come to have the identifier of another kind
than its own (`Rule.isTagged_of_read`).  A rule with the identifier of its own kind, and only such a
rule, reads back as it is (`Rule.read_write_iff`).
-/

namespace ServiceManual.Rule

open Raw Checked

variable {rule : Rule} {value : Raw} {fields : List (Scalar × Raw)} {kind : RuleKind}

/-- The identifier of a rule selects the kind that it is of. -/
def IsTagged (rule : Rule) : Prop :=
  RuleKind.ofId? rule.id = rule.kind?

/-- The fields that a rule of unknown kind came with have texts as keys, which have an encoding,
and none of them is the identifier. -/
def IsWellNamed : Rule → Prop
  | .unknown _ extra => ∀ entry ∈ extra, ∃ name, entry.1 = .text name ∧ name ≠ "id" ∧
      Text.hasSurrogate name = false
  | _ => True

theorem isTagged_of_kind? (h : rule.kind? = some kind) : rule.IsTagged := by
  cases rule with
  | unknown id extra => simp [kind?] at h
  | limit kind => exact RuleKind.ofId?_id (.limit kind)
  | uniqueItems => exact RuleKind.ofId?_id .uniqueItems
  | compare comparison => exact RuleKind.ofId?_id (.compare comparison)
  | pattern => exact RuleKind.ofId?_id .pattern

theorem isWellNamed_of_kind? (h : rule.kind? = some kind) : rule.IsWellNamed := by
  cases rule with
  | unknown id extra => simp [kind?] at h
  | limit => trivial
  | uniqueItems => trivial
  | compare => trivial
  | pattern => trivial

/-! ## Reading -/

theorem kind?_of_readKnown (h : readKnown kind fields = .valid rule) : rule.kind? = some kind := by
  cases kind with
  | limit kind =>
      obtain ⟨bound, -, rfl⟩ := map_eq_valid_iff.mp h
      rfl
  | uniqueItems =>
      obtain rfl := Checked.valid.inj h
      rfl
  | compare comparison =>
      obtain ⟨operand, -, rfl⟩ := map_eq_valid_iff.mp h
      rfl
  | pattern =>
      obtain ⟨expression, -, rfl⟩ := map_eq_valid_iff.mp h
      rfl

/-- The keys of fields are texts that have an encoding. -/
def AreNamed (fields : List (Scalar × Raw)) : Prop :=
  ∀ entry ∈ fields, ∃ name, entry.1 = .text name ∧ Text.hasSurrogate name = false

/-- The issues with keys that are no texts. -/
def misnamed (fields : List (Scalar × Raw)) : List Issue :=
  fields.filterMap fun entry =>
    match entry.1 with
    | .text _ => none
    | key => some ⟨[key.step], .keyNotText⟩

theorem areNamed_iff : AreNamed fields ↔
    (fields.any fun entry => hasNoEncoding entry.1) = false ∧ misnamed fields = [] := by
  simp only [AreNamed, misnamed, List.any_eq_false, List.filterMap_eq_nil_iff, ← forall₂_and]
  refine forall₂_congr fun entry _ => ?_
  cases entry.1 <;> simp [hasNoEncoding]

/-- A rule of unknown kind keeps all fields but its identifier. -/
theorem readUnknown_eq_valid_iff : readUnknown fields = .valid rule ↔
    AreNamed (without "id" fields) ∧ ∃ part id, field? "id" fields = some part ∧
      readText part = .valid id ∧ rule = .unknown id (without "id" fields) := by
  have hunfold : readUnknown fields =
      if (without "id" fields).any fun entry => hasNoEncoding entry.1 then refuse .notUnicode
      else (fun id rest => Rule.unknown id rest) <$> requiredField "id" readText fields <*>
        (if (misnamed (without "id" fields)).isEmpty then .valid (without "id" fields)
          else .invalid (misnamed (without "id" fields))) := rfl
  rw [hunfold, areNamed_iff]
  -- Keys are looked at twice, first for their encoding and then for being texts.
  cases hencoded : (without "id" fields).any fun entry => hasNoEncoding entry.1 with
  | true => simp [refuse]
  | false =>
      cases hnamed : misnamed (without "id" fields) with
      | cons issue more => simp [apply_eq_valid_iff]
      | nil =>
          simp only [Bool.false_eq_true, if_false, List.isEmpty_nil, if_true, map_eq, seq_eq,
            apply_eq_valid_iff, map_eq_valid_iff, requiredField_eq_valid_iff, and_self, true_and]
          constructor
          · rintro ⟨_, rest, ⟨id, ⟨part, hpart, hid⟩, rfl⟩, hrest, rfl⟩
            obtain rfl := Checked.valid.inj hrest
            exact ⟨part, id, hpart, hid, rfl⟩
          · rintro ⟨part, id, hpart, hid, rfl⟩
            exact ⟨_, _, ⟨id, ⟨part, hpart, hid⟩, rfl⟩, rfl, rfl⟩

theorem read_cases (h : Rule.read value = .valid rule) :
    ∃ fields, value = .mapping fields ∧
      ((∃ id kind, field? "id" fields = some (.text id) ∧ RuleKind.ofId? id = some kind ∧
          readKnown kind fields = .valid rule) ∨
        (readUnknown fields = .valid rule ∧
          ((∃ id, field? "id" fields = some (.text id) ∧ RuleKind.ofId? id = none) ∨
            ∃ bytes, field? "id" fields = some (.scalar (.bytes bytes))))) := by
  cases value with
  | mapping fields =>
      refine ⟨fields, rfl, ?_⟩
      simp only [Rule.read] at h
      split at h
      · cases h
      · cases h
      · rename_i id hid
        cases hkind : RuleKind.ofId? id with
        | some kind =>
            simp only [hkind, within_eq_valid_iff] at h
            exact .inl ⟨id, kind, hid, hkind, h⟩
        | none =>
            simp only [hkind, within_eq_valid_iff] at h
            exact .inr ⟨h, .inl ⟨id, hid, hkind⟩⟩
      · rename_i hlist hmapping htext
        rw [within_eq_valid_iff] at h
        refine .inr ⟨h, .inr ?_⟩
        obtain ⟨-, part, id, hpart, hid, -⟩ := readUnknown_eq_valid_iff.mp h
        -- Of what is left only bytes are read as a text.
        unfold readText at hid
        split at hid
        · exact absurd hpart (htext _)
        · exact ⟨_, hpart⟩
        · cases hid
  | scalar => cases h
  | list => cases h
  | set => cases h
  | pair => cases h

theorem isWellNamed_unknown {id : String} (h : AreNamed (without "id" fields)) :
    (unknown id (without "id" fields)).IsWellNamed := by
  intro entry hentry
  obtain ⟨name, hname, hencoded⟩ := h entry hentry
  refine ⟨name, hname, ?_, hencoded⟩
  rintro rfl
  simp [without, hname] at hentry

theorem isWellNamed_of_read (h : Rule.read value = .valid rule) : rule.IsWellNamed := by
  obtain ⟨fields, -, ⟨id, kind, -, -, hknown⟩ | ⟨hunknown, -⟩⟩ := read_cases h
  · exact isWellNamed_of_kind? (kind?_of_readKnown hknown)
  · obtain ⟨hnamed, _, id, -, -, rfl⟩ := readUnknown_eq_valid_iff.mp hunknown
    exact isWellNamed_unknown hnamed

/-- A value is a mapping whose identifier is the bytes that encode the one of a known kind. -/
def HasByteTag (value : Raw) : Prop :=
  ∃ bytes kind, value.FieldIs "id" (.scalar (.bytes bytes)) ∧
    String.fromUTF8? bytes.toByteArray = some (RuleKind.id kind)

theorem eq_id_of_ofId? {id : String} (h : RuleKind.ofId? id = some kind) : id = kind.id := by
  have hfound := List.find?_some h
  exact (eq_of_beq hfound).symm

/-- A rule that was read has the identifier of its own kind, unless that came as bytes. -/
theorem isTagged_of_read (h : Rule.read value = .valid rule) (hbytes : ¬ HasByteTag value) :
    rule.IsTagged := by
  obtain ⟨fields, rfl, ⟨id, kind, -, -, hknown⟩ | ⟨hunknown, hid⟩⟩ := read_cases h
  · exact isTagged_of_kind? (kind?_of_readKnown hknown)
  · obtain ⟨-, part, id, hpart, hread, rfl⟩ := readUnknown_eq_valid_iff.mp hunknown
    rcases hid with ⟨text, htext, hnone⟩ | ⟨bytes, hvalue⟩
    · obtain rfl : part = .text text := Option.some.inj (hpart.symm.trans htext)
      obtain rfl := Checked.valid.inj hread
      exact hnone
    · obtain rfl : part = .scalar (.bytes bytes) := Option.some.inj (hpart.symm.trans hvalue)
      -- The bytes of a known identifier are what is excluded.
      cases hkind : RuleKind.ofId? id with
      | none => exact hkind
      | some kind =>
          refine absurd ⟨bytes, kind, fieldIs_mapping.mpr hvalue, ?_⟩ hbytes
          rw [← eq_id_of_ofId? hkind]
          simp only [readText, decoded] at hread
          split at hread
          · rename_i text htext
            obtain rfl := Checked.valid.inj hread
            exact htext
          · cases hread

/-! ## Reading back -/

theorem without_id_extra {extra : List (Scalar × Raw)} {id : String}
    (hnamed : (unknown id extra).IsWellNamed) :
    without "id" ((.text "id", .text id) :: extra) = extra := by
  have hkept : ∀ entry ∈ extra, (entry.1 != .text "id") = true := by
    intro entry hentry
    obtain ⟨name, hname, hother, -⟩ := hnamed entry hentry
    simp [hname, hother]
  simp only [without, List.filter_cons]
  simpa using hkept

theorem read_write_of_kind? (h : rule.kind? = some kind) : Rule.read rule.write = .valid rule := by
  cases rule with
  | unknown id extra => simp [kind?] at h
  | limit kind bound => cases kind <;> rfl
  | uniqueItems => rfl
  | compare comparison operand => cases comparison <;> cases operand <;> rfl
  | pattern expression => rfl

/-- A rule of unknown kind reads back exactly when its identifier is not known. -/
theorem read_write_unknown_iff {id : String} {extra : List (Scalar × Raw)}
    (hnamed : (unknown id extra).IsWellNamed) :
    Rule.read (unknown id extra).write = .valid (unknown id extra) ↔ RuleKind.ofId? id = none := by
  constructor
  · intro hread
    obtain ⟨fields, hfields, hcases⟩ := read_cases hread
    obtain rfl := Raw.mapping.inj hfields
    rw [field?_cons_self] at hcases
    -- It was written with a text, which selects no kind if it is read as unknown.
    rcases hcases with ⟨_, _, -, -, hknown⟩ | ⟨-, ⟨other, hother, hnone⟩ | ⟨bytes, hbytes⟩⟩
    · exact absurd (kind?_of_readKnown hknown) (by simp [kind?])
    · obtain rfl : id = other := by simpa using hother
      exact hnone
    · simp at hbytes
  · intro hnone
    have hread : readUnknown ((.text "id", .text id) :: extra) = .valid (unknown id extra) := by
      rw [readUnknown_eq_valid_iff, without_id_extra hnamed]
      refine ⟨fun entry hentry => ?_, .text id, id, field?_cons_self _, rfl, rfl⟩
      obtain ⟨name, hname, -, hencoded⟩ := hnamed entry hentry
      exact ⟨name, hname, hencoded⟩
    simp only [Rule.read, write, field?_cons_self, hnone, hread, within]

/-- A rule reads back exactly when it has the identifier of its own kind. -/
theorem read_write_iff (hnamed : rule.IsWellNamed) :
    Rule.read rule.write = .valid rule ↔ rule.IsTagged := by
  cases hkind : rule.kind? with
  | some kind => exact iff_of_true (read_write_of_kind? hkind) (isTagged_of_kind? hkind)
  | none =>
      cases rule with
      | unknown id extra => exact read_write_unknown_iff hnamed
      | limit | uniqueItems | compare | pattern => cases hkind

end ServiceManual.Rule
