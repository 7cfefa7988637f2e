import ServiceManual.Manual
import ServiceManual.Proofs.Service.Metadata
import ServiceManual.Proofs.SortedTable

/-!
# Descriptions of values

The values of an enum and the keys under which they are described are read in different ways, a
value as a literal and a key as its text.  They meet in the text of the literal.  A text, an
integer and a real are kept as they are, so they have the text that they have as a key.  A truth
value becomes the integer that it stands for and has the text of that (`Scalar.literalText`): what
is given under `True` describes no value (`switch_value_not_described`).

A description that is given under the text of a value is found for the value, whether it stands in
the documentation of the enum or in its metadata, and is shown behind the value
(`EnumType.descriptionOf?_of_read`).
-/

namespace ServiceManual

open Raw Checked

/-! ## Texts of values -/

/-- The text that counts for a value among those of an enum.  A truth value counts as the integer
that it stands for. -/
def Scalar.literalText : Scalar → String
  | .flag value => if value then "1" else "0"
  | other => other.toText

/-- A literal has the text that counts for what it is read from.  Bytes are left out, which have
another text than what they encode. -/
theorem toText_of_readLiteral {value : Scalar} {literal : Literal}
    (h : readLiteral (.scalar value) = .valid literal) (hkind : value.kind ≠ .bytes) :
    literal.toText = value.literalText := by
  cases value with
  | flag value =>
      obtain rfl := Checked.valid.inj h
      cases value <;> rfl
  | integer | real | text =>
      obtain rfl := Checked.valid.inj h
      rfl
  | bytes => exact absurd rfl hkind
  | null | date | moment => cases h

/-- What has a text is read as a literal that can be shown. -/
theorem integerObstacle?_of_readLiteral {value : Scalar} {literal : Literal}
    (h : readLiteral (.scalar value) = .valid literal) (htext : value.hasText = true) :
    literal.integer?.bind Manual.integerObstacle? = none := by
  cases value with
  | integer value =>
      obtain rfl := Checked.valid.inj h
      have hwritable : isWritable value = true := htext
      simp [Literal.integer?, Manual.integerObstacle?, hwritable]
  -- A truth value stands for one or nought, and both are short enough.
  | flag value =>
      obtain rfl := Checked.valid.inj h
      cases value <;> decide
  | real | text =>
      obtain rfl := Checked.valid.inj h
      rfl
  | bytes =>
      simp only [readLiteral] at h
      split at h
      · obtain rfl := Checked.valid.inj h
        rfl
      · cases h
  | null | date | moment => cases h

/-! ## Texts of keys -/

variable {fields entries : List (Scalar × Raw)} {enum : EnumType}

/-- Where the keys have different texts, each description is found under the text of its key. -/
theorem get?_of_readValueDescriptions {table : Table String} {key : Scalar} {text : String}
    (h : readValueDescriptions (.mapping entries) = .valid table)
    (hkeys : (entries.map fun entry => entry.1.toText).Nodup)
    (hentry : (key, .text text) ∈ entries) : table.get? key.toText = some text := by
  have hread : readTable readText (keyedByText (.mapping entries)) = .valid table := by
    unfold readValueDescriptions at h
    split at h
    · exact h
    · cases h
  -- Different texts are different keys, so no description takes the place of another.
  have hkeyed : keyedByText (.mapping entries) =
      .mapping (entries.map fun entry => (.text entry.1.toText, entry.2)) := by
    have hassigned := ofAssignments_texts id
      (entries.map fun entry => (entry.1.toText, entry.2))
    rw [assigned_eq_self_of_nodup (by simpa [Function.comp_def] using hkeys)] at hassigned
    simpa [keyedByText, Function.comp_def] using hassigned
  rw [hkeyed] at hread
  refine (Table.get?_eq_some_iff (nodup_names_of_readTable hread)).mpr ?_
  obtain ⟨before, after, rfl⟩ := List.append_of_mem hentry
  rw [mem_iff_of_readTable hread]
  refine ⟨_, _, _, by rw [List.map_append, List.map_cons], rfl, rfl, fun later hlater hsame => ?_⟩
  obtain ⟨entry, hentry, rfl⟩ := List.mem_map.mp hlater
  rw [List.map_append, List.map_cons, List.nodup_append, List.nodup_cons] at hkeys
  exact hkeys.2.1.1 (List.mem_map.mpr ⟨entry, hentry, Checked.valid.inj hsame⟩)

/-! ## Described enums -/

/-- Some fields describe the values of an enum by these entries, in its documentation or, where
none is given, in its metadata. -/
inductive EnumType.DescribesValues (fields entries : List (Scalar × Raw)) : Prop
  | docs {docs : List (Scalar × Raw)} (hdocs : field? "docs" fields = some (.mapping docs))
      (hentries : field? "value_descriptions" docs = some (.mapping entries)) :
      DescribesValues fields entries
  | metadata {items : List Raw} {description : Option String}
      (hdocs : given? "docs" fields = none) (hmeta : field? "meta" fields = some (.list items))
      (hitems : MetadataDocument items description (some entries)) :
      DescribesValues fields entries

/-- Either way the descriptions are in the documentation that is read. -/
theorem EnumType.DescribesValues.exists_lifted (h : DescribesValues fields entries) :
    ∃ lifted docs, liftMetadata fields = .ok lifted ∧
      field? "docs" lifted = some (.mapping docs) ∧
      field? "value_descriptions" docs = some (.mapping entries) := by
  cases h with
  | @docs docs hdocs hentries =>
      have hgiven : given? "docs" fields ≠ none := by simp [given?, hdocs]
      obtain ⟨lifted, hlifted, hsame⟩ := exists_liftMetadata_of_given hgiven
      exact ⟨lifted, docs, hlifted, hsame.trans hdocs, hentries⟩
  | @metadata items description hdocs hmeta hitems =>
      refine ⟨_, liftedDocs description (some entries),
        hitems.liftMetadata_eq hmeta hdocs (.inr rfl), ?_, ?_⟩
      · rw [field?_insert, if_pos rfl]
      · simp [liftedDocs, field?]

theorem EnumType.DescribesValues.exists_docs (h : DescribesValues fields entries)
    (hread : EnumType.read (.mapping fields) = .valid enum) :
    ∃ docs, enum.docs = some docs ∧
      readValueDescriptions (.mapping entries) = .valid docs.valueDescriptions := by
  obtain ⟨lifted, docs, hlifted, hdocs, hentries⟩ := h.exists_lifted
  obtain ⟨_, hsame, -, -, hfound⟩ := read_eq_valid_iff.mp hread
  obtain rfl := Except.ok.inj (hlifted.symm.trans hsame)
  rw [optionalField, hdocs] at hfound
  simp only [within_eq_valid_iff, readNullable, map_eq, map_eq_valid_iff] at hfound
  obtain ⟨⟨description, table⟩, hread, henum⟩ := hfound
  simp only [EnumDocs.read, readModel, map_eq, seq_eq, apply_eq_valid_iff, map_eq_valid_iff,
    optionalField, hentries, within_eq_valid_iff] at hread
  obtain ⟨_, _, ⟨_, -, rfl⟩, htable, hdocs⟩ := hread
  obtain ⟨rfl, rfl⟩ := EnumDocs.mk.inj hdocs
  exact ⟨_, henum.symm, htable⟩

theorem EnumType.exists_member_of_read {members member : Raw} {position : Nat}
    (hread : EnumType.read (.mapping fields) = .valid enum)
    (hmembers : field? "members" fields = some members)
    (hmember : members.items[position]? = some member) :
    ∃ value, enum.members[position]? = some value ∧ readLiteral member = .valid value := by
  obtain ⟨_, -, -, hvalues, -⟩ := read_eq_valid_iff.mp hread
  rw [optionalField, hmembers] at hvalues
  simp only [within_eq_valid_iff, readList_eq_valid_iff, List.forall₂_iff_get] at hvalues
  obtain ⟨-, hlength, hread⟩ := hvalues
  obtain ⟨hposition, rfl⟩ := List.getElem?_eq_some_iff.mp hmember
  exact ⟨_, List.getElem?_eq_getElem (hlength ▸ hposition), hread _ hposition _⟩

/-! ## Lines of values -/

theorem EnumType.lines_bullets (enum : EnumType) :
    (Block.bullets (enum.members.map (Section.valueBullet enum))).lines =
      enum.members.map fun value => "- " ++ Bullet.quoted value.toText ++
        Bullet.described (Section.nonempty? (enum.descriptionOf? value.toText)) := by
  rw [Block.lines, List.flatMap_map]
  exact List.map_eq_flatMap.symm

theorem described_nonempty? (text : String) :
    Bullet.described (Section.nonempty? (some text)) =
      if text.isEmpty then "" else " - " ++ text := by
  rw [Section.nonempty?, Option.filter_some]
  cases text.isEmpty <;> rfl

/-- **Descriptions of values are found.**  Where an enum is read and its values are described under
keys with different texts, the value that a member becomes can be shown and has the description
that is given under the text of the member.  It is shown in the line of the value, unless it is
empty. -/
theorem EnumType.descriptionOf?_of_read {members : Raw} (position : Nat) (member key : Scalar)
    (text : String) (hread : EnumType.read (.mapping fields) = .valid enum)
    (hdescribes : DescribesValues fields entries)
    (hkeys : (entries.map fun entry => entry.1.toText).Nodup)
    (hmembers : field? "members" fields = some members)
    (hmember : members.items[position]? = some (.scalar member)) (hkind : member.kind ≠ .bytes)
    (htext : member.hasText = true) (hentry : (key, .text text) ∈ entries)
    (hkey : key.toText = member.literalText) :
    ∃ value, enum.members[position]? = some value ∧
      value.integer?.bind Manual.integerObstacle? = none ∧
      enum.descriptionOf? value.toText = some text ∧
      ∃ items, .bullets items ∈ (Section.ofEnum enum).body ∧
        (Block.bullets items).lines[position]? =
          some ("- " ++ Bullet.quoted member.literalText ++
            if text.isEmpty then "" else " - " ++ text) := by
  obtain ⟨value, hvalue, hliteral⟩ := exists_member_of_read hread hmembers hmember
  obtain ⟨docs, hdocs, htable⟩ := hdescribes.exists_docs hread
  -- The value and the key of its description meet in the text of the literal.
  have hsame : value.toText = member.literalText := toText_of_readLiteral hliteral hkind
  have hfound : enum.descriptionOf? value.toText = some text := by
    rw [descriptionOf?, hdocs, hsame, ← hkey]
    exact get?_of_readValueDescriptions htable hkeys hentry
  refine ⟨value, hvalue, integerObstacle?_of_readLiteral hliteral htext, hfound,
    enum.members.map (Section.valueBullet enum), ?_, ?_⟩
  · have hvalues : enum.members ≠ [] := by
      rintro hnone
      simp [hnone] at hvalue
    simp [Section.ofEnum, Section.bulletList, hvalues]
  · rw [lines_bullets, List.getElem?_map, hvalue, Option.map_some, hfound, described_nonempty?,
      hsame]

/-- Descriptions of the levels, under an integer and under a text. -/
def levelDescriptions : List (Scalar × Raw) :=
  [(.integer 1, .text "Lowest"), (.text "2", .text "Middle")]

def levelMetadata : List Raw :=
  [.ofFields [("key", .text enumValueDescriptionsKey), ("value", .mapping levelDescriptions)]]

/-- An enum of a truth value, an integer and a text, described in its metadata. -/
def levelFields : List (Scalar × Raw) :=
  [(.text "name", .text "Level"),
    (.text "members", .list [.scalar (.flag true), .scalar (.integer 2), .text "high"]),
    (.text "meta", .list levelMetadata)]

def level : EnumType where
  name := "Level"
  members := [.integer 1, .integer 2, .text "high"]
  docs := some ⟨none, [("1", "Lowest"), ("2", "Middle")]⟩

theorem metadataDocument_levelMetadata :
    MetadataDocument levelMetadata none (some levelDescriptions) where
  keys := by simp [levelMetadata, FieldIs, ofFields, field?, IsCompound]
  description := by
    simp [levelMetadata, HoldsUnder, FieldIs, ofFields, field?, enumDescriptionKey,
      enumValueDescriptionsKey]
  values := ⟨[], _, [], rfl, fieldIs_mapping.mpr rfl, fieldIs_mapping.mpr rfl, nofun⟩

/-- The first level is described under the integer that its truth value stands for, the second one
under its text. -/
theorem level_values_described :
    EnumType.read (.mapping levelFields) = .valid level ∧
      level.descriptionOf? (Literal.integer 1).toText = some "Lowest" ∧
      level.descriptionOf? (Literal.integer 2).toText = some "Middle" := by
  have hread : EnumType.read (.mapping levelFields) = .valid level := by rfl
  have hdescribes : EnumType.DescribesValues levelFields levelDescriptions :=
    .metadata rfl rfl metadataDocument_levelMetadata
  obtain ⟨first, hfirst, -, hlowest, -⟩ :=
    EnumType.descriptionOf?_of_read 0 (.flag true) (.integer 1) "Lowest" hread
      hdescribes (by decide) rfl rfl (by decide) rfl (by simp [levelDescriptions]) (by decide)
  obtain ⟨second, hsecond, -, hmiddle, -⟩ :=
    EnumType.descriptionOf?_of_read 1 (.integer 2) (.text "2") "Middle" hread
      hdescribes (by decide) rfl rfl (by decide) (by decide +kernel)
      (by simp [levelDescriptions]) (by decide)
  obtain rfl : first = .integer 1 := (Option.some.inj hfirst).symm
  obtain rfl : second = .integer 2 := (Option.some.inj hsecond).symm
  exact ⟨hread, hlowest, hmiddle⟩

/-- An enum of a truth value that is described under its text. -/
def switchFields : List (Scalar × Raw) :=
  [(.text "name", .text "Switch"), (.text "members", .list [.scalar (.flag true)]),
    (.text "docs", .ofFields [("value_descriptions", .ofFields [("True", .text "On")])])]

def switch : EnumType where
  name := "Switch"
  members := [.integer 1]
  docs := some ⟨none, [("True", "On")]⟩

/-- The description of a truth value is not found and not shown. -/
theorem switch_value_not_described :
    EnumType.read (.mapping switchFields) = .valid switch ∧
      field? "members" switchFields = some (.list [.scalar (.flag true)]) ∧
      EnumType.DescribesValues switchFields [(.text "True", .text "On")] ∧
      (Scalar.text "True").toText = (Scalar.flag true).toText ∧
      switch.members[0]? = some (.integer 1) ∧
      switch.descriptionOf? (Literal.integer 1).toText = none ∧
      (Section.ofEnum switch).body.flatMap Block.lines = ["`Switch`", "- `1`"] :=
  ⟨by cbv, rfl, .docs rfl rfl, rfl, rfl, by decide, by cbv⟩

end ServiceManual
