import ServiceManual.Proofs.Service.Names

/-!
# Fields by name

A mapping is read by asking for fields by name, so two mappings that answer alike are read alike,
in whatever order their entries stand (`Raw.SameFields`, `ReadsByName`).  An enum is no exception,
although its metadata are moved before it is read.

Where a mapping is made by assignments, a field has what was assigned to it last
(`Raw.field?_ofAssignments`).  Assignments to texts leave each text once, in the order of first
occurrence, with what stands last under it (`Raw.ofAssignments_texts`).
-/

namespace ServiceManual

open Raw Checked

namespace Raw

variable {α : Type} {name : String} {fields others : List (Scalar × Raw)}

/-! ## Assignments -/

/-- A text is one key only with itself. -/
theorem eq_text_of_text_sameKey {key : Scalar} (h : Scalar.sameKey (.text name) key = true) :
    key = .text name := by
  refine eq_text_of_sameKey ?_
  cases key with
  | moment => simp [Scalar.sameKey, Scalar.asKey] at h
  | null | flag | integer | real | text | bytes | date =>
      simp only [Scalar.sameKey, beq_iff_eq] at h ⊢
      exact h.symm

theorem field?_insert (key : Scalar) (value : Raw) (fields : List (Scalar × Raw)) :
    field? name (Raw.insert key value fields) =
      if key = .text name then some value else field? name fields := by
  rw [Raw.insert]
  induction fields with
  | nil => simp [insertBy, field?]
  | cons entry rest ih =>
      obtain ⟨other, given⟩ := entry
      rw [insertBy]
      split
      · rename_i hsame
        -- The key that is there keeps its spelling, which for a text is the same.
        have hboth : other = .text name ↔ key = .text name :=
          ⟨fun h => eq_text_of_text_sameKey (h ▸ hsame), fun h => eq_text_of_sameKey (h ▸ hsame)⟩
        simp only [field?, hboth]
        split <;> rfl
      · rename_i hsame
        simp only [field?, ih]
        split
        · rename_i hother
          rw [if_neg]
          rintro rfl
          exact hsame (by rw [hother, Scalar.sameKey_text, beq_self_eq_true])
        · rfl

theorem field?_append (fields others : List (Scalar × Raw)) :
    field? name (fields ++ others) = (field? name fields).or (field? name others) := by
  induction fields with
  | nil => rfl
  | cons entry rest ih =>
      rw [List.cons_append, field?, field?, ih]
      split <;> rfl

theorem field?_eq_none_iff :
    field? name fields = none ↔ ∀ entry ∈ fields, entry.1 ≠ .text name := by
  induction fields with
  | nil => simp [field?]
  | cons entry rest ih =>
      rw [field?, List.forall_mem_cons, ← ih]
      by_cases hkey : entry.1 = .text name <;> simp [hkey]

theorem field?_ofAssignments (assignments : List (Scalar × Raw)) :
    field? name (ofAssignments assignments) = field? name assignments.reverse := by
  induction assignments using List.reverseRecOn with
  | nil => rfl
  | append_singleton before last ih =>
      have hlast : ofAssignments (before ++ [last]) =
          Raw.insert last.1 last.2 (ofAssignments before) := assigned_concat before last
      rw [hlast, field?_insert, ih, List.reverse_append, List.reverse_singleton,
        List.singleton_append, field?]

/-- Assignments to texts go like those to the names of a table. -/
theorem ofAssignments_texts {β : Type} (write : α → β) (table : Table α) :
    ofAssignments (table.map fun entry => (Scalar.text entry.1, write entry.2)) =
      (assigned (· == ·) table).map fun entry => (Scalar.text entry.1, write entry.2) := by
  -- Texts are the same key only if they are the same text, so both find the same entry.
  have hinsert : ∀ (name : String) (a : α) (table : Table α),
      insertBy Scalar.sameKey (.text name) (write a)
          (table.map fun entry => (Scalar.text entry.1, write entry.2)) =
        (insertBy (· == ·) name a table).map fun entry =>
          (Scalar.text entry.1, write entry.2) := by
    intro name a table
    induction table with
    | nil => rfl
    | cons entry rest ih =>
        simp only [List.map_cons, insertBy, Scalar.sameKey_text]
        split
        · rfl
        · rw [ih, List.map_cons]
  induction table using List.reverseRecOn with
  | nil => rfl
  | append_singleton before last ih =>
      rw [ofAssignments] at ih ⊢
      rw [List.map_append, List.map_singleton, assigned_concat, ih, hinsert, assigned_concat]

/-! ## Fields alike -/

/-- The same stands under every name. -/
def SameFields (fields others : List (Scalar × Raw)) : Prop :=
  ∀ name, field? name fields = field? name others

theorem SameFields.insert (h : SameFields fields others) (key : Scalar) (value : Raw) :
    SameFields (Raw.insert key value fields) (Raw.insert key value others) := by
  intro name
  rw [field?_insert, field?_insert, h name]

theorem field?_without_self (name : String) (fields : List (Scalar × Raw)) :
    field? name (without name fields) = none := by
  induction fields with
  | nil => rfl
  | cons entry rest ih =>
      rw [without] at ih
      by_cases hkey : entry.1 = .text name
      · simp [without, hkey, ih]
      · simp [without, field?, hkey, ih]

theorem SameFields.without (h : SameFields fields others) (dropped : String) :
    SameFields (Raw.without dropped fields) (Raw.without dropped others) := by
  intro name
  by_cases hname : dropped = name
  · rw [hname, field?_without_self, field?_without_self]
  · rw [field?_without hname, field?_without hname, h name]

/-- It does not matter that a field is put at the end. -/
theorem sameFields_without_append {value : Raw} (hvalue : field? name fields = some value) :
    SameFields (without name fields ++ [(.text name, value)]) fields := by
  intro other
  by_cases hname : name = other
  · subst hname
    rw [field?_append, field?_without_self, hvalue, Option.none_or, field?_cons_self]
  · rw [field?_append_of_ne hname, field?_without hname]

/-! ## Reading by name -/

variable {read : Raw → Checked α}

theorem requiredField_congr (h : field? name fields = field? name others) :
    requiredField name read fields = requiredField name read others := by
  rw [requiredField, requiredField, h]

theorem optionalField_congr {absent : α} (h : field? name fields = field? name others) :
    optionalField name absent read fields = optionalField name absent read others := by
  rw [optionalField, optionalField, h]

end Raw

/-- What is read from a mapping depends only on what stands under each name. -/
def ReadsByName {α : Type} (read : Raw → Checked α) : Prop :=
  ∀ fields others, SameFields fields others → read (.mapping fields) = read (.mapping others)

theorem ComplexType.readsByName : ReadsByName ComplexType.read := by
  intro fields others h
  simp only [ComplexType.read, readModel, requiredField_congr (h _), optionalField_congr (h _)]

theorem UnionType.readsByName : ReadsByName UnionType.read := by
  intro fields others h
  simp only [UnionType.read, readModel, requiredField_congr (h _), optionalField_congr (h _)]

/-! ## Enums -/

variable {fields others lifted : List (Scalar × Raw)}

/-- Metadata are lifted alike, to fields that are alike, or break off alike. -/
theorem liftMetadata_sameFields (h : SameFields fields others) :
    (∃ fault, liftMetadata fields = .error fault ∧ liftMetadata others = .error fault) ∨
      ∃ lifted more, liftMetadata fields = .ok lifted ∧ liftMetadata others = .ok more ∧
        SameFields lifted more := by
  have hrest := h.without "meta"
  have hdocs : given? "docs" (without "meta" fields) = given? "docs" (without "meta" others) := by
    rw [given?, given?, hrest "docs"]
  unfold liftMetadata
  rw [h "meta"]
  cases field? "meta" others with
  | none => exact .inr ⟨fields, others, rfl, rfl, h⟩
  | some metadata =>
      simp only [hdocs]
      cases given? "docs" (without "meta" others) with
      | some docs => exact .inr ⟨_, _, rfl, rfl, hrest⟩
      | none =>
          -- The metadata are one value, on both sides.
          cases metadataEntries metadata with
          | error fault => exact .inl ⟨fault, rfl, rfl⟩
          | ok entries =>
              refine .inr ⟨_, _, rfl, rfl, ?_⟩
              dsimp only
              split
              · exact hrest
              · exact hrest.insert _ _

/-- Of the fields of an enum lifting moves only the documentation. -/
theorem EnumType.read_of_lifted (hlifted : liftMetadata fields = .ok lifted) :
    EnumType.read (.mapping fields) =
      EnumType.mk <$> requiredField "name" readText fields <*>
        optionalField "members" [] (readList readLiteral) fields <*>
        optionalField "docs" none (readNullable EnumDocs.read) lifted := by
  have hname : field? "name" lifted = field? "name" fields :=
    field?_liftMetadata hlifted (by decide) (by decide)
  have hmembers : field? "members" lifted = field? "members" fields :=
    field?_liftMetadata hlifted (by decide) (by decide)
  simp only [EnumType.read, readModel, hlifted, requiredField_congr hname,
    optionalField_congr hmembers]

theorem EnumType.read_eq_valid_iff {enum : EnumType} :
    EnumType.read (.mapping fields) = .valid enum ↔
      ∃ lifted, liftMetadata fields = .ok lifted ∧
        requiredField "name" readText fields = .valid enum.name ∧
        optionalField "members" [] (readList readLiteral) fields = .valid enum.members ∧
        optionalField "docs" none (readNullable EnumDocs.read) lifted = .valid enum.docs := by
  cases hlifted : liftMetadata fields with
  | error fault => simp [EnumType.read, readModel, hlifted]
  | ok lifted =>
      rw [read_of_lifted hlifted]
      simp only [map_eq, seq_eq, apply_eq_valid_iff, map_eq_valid_iff]
      constructor
      · rintro ⟨_, _, ⟨_, _, ⟨_, hname, rfl⟩, hmembers, rfl⟩, hdocs, rfl⟩
        exact ⟨lifted, rfl, hname, hmembers, hdocs⟩
      · rintro ⟨_, hsame, hname, hmembers, hdocs⟩
        obtain rfl := Except.ok.inj hsame
        exact ⟨_, _, ⟨_, _, ⟨_, hname, rfl⟩, hmembers, rfl⟩, hdocs, rfl⟩

theorem EnumType.readsByName : ReadsByName EnumType.read := by
  intro fields others h
  rcases liftMetadata_sameFields h with
    ⟨fault, hfields, hothers⟩ | ⟨lifted, more, hfields, hothers, hsame⟩
  · simp only [EnumType.read, readModel, hfields, hothers]
  · rw [read_of_lifted hfields, read_of_lifted hothers, requiredField_congr (h _),
      optionalField_congr (h _), optionalField_congr (hsame _)]

end ServiceManual
