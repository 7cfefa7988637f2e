import ServiceManual.Proofs.Service.Fields

/-!
# Documentation of enums in their metadata

The documentation of an enum is given in its place, or in a list of metadata: the description of
the whole and those of the values, each as the value of an item with a key that is known for it.
The list may have other items, before, between and after these, and either part may be missing.

The metadata give the same documentation as if it stood in its place
(`MetadataDocument.liftMetadata_eq`), and where documentation is given they are passed over.  So an
enum is read alike in either form, also where something is wrong with it
(`EnumType.read_eq_of_documents`).
-/

namespace ServiceManual

open Raw Checked

variable {fields docs : List (Scalar × Raw)} {items : List Raw} {key : String}

/-! ## Items under keys -/

/-- The last of some items with this key has this value, or no item has the key. -/
def HoldsUnder (items : List Raw) (key : String) : Option Raw → Prop
  | some value => ∃ before item after, items = before ++ item :: after ∧
      item.FieldIs "key" (.text key) ∧ item.FieldIs "value" value ∧
      ∀ later ∈ after, ¬ later.FieldIs "key" (.text key)
  | none => ∀ item ∈ items, ¬ item.FieldIs "key" (.text key)

/-- The key and value of an item of metadata. -/
def metadataPair? : Raw → Option (Scalar × Raw)
  | .mapping fields =>
    match (field? "key" fields).getD .null with
    | .scalar key => some (key, (field? "value" fields).getD .null)
    | _ => none
  | _ => none

theorem metadataPairs_eq_ok
    (hkeys : ∀ item ∈ items, ∀ key, item.FieldIs "key" key → ¬ key.IsCompound) :
    metadataPairs items = .ok (items.filterMap metadataPair?) := by
  induction items with
  | nil => rfl
  | cons item rest ih =>
      rw [List.forall_mem_cons] at hkeys
      cases item with
      | mapping fields =>
          cases hkey : field? "key" fields with
          | none => simp [metadataPairs, metadataPair?, hkey, ih hkeys.2, Except.map]
          | some key =>
              -- At a key of any other kind the pairs would not be found.
              have hscalar := hkeys.1 key (fieldIs_mapping.mpr hkey)
              cases key with
              | scalar key => simp [metadataPairs, metadataPair?, hkey, ih hkeys.2, Except.map]
              | list | mapping | set | pair => exact absurd True.intro hscalar
      | scalar | list | set | pair =>
          rw [List.filterMap_cons_none rfl]
          exact ih hkeys.2

theorem metadataPair?_eq_some_iff {item value : Raw} :
    metadataPair? item = some (.text key, value) ↔ item.FieldIs "key" (.text key) ∧
      ∃ fields, item = .mapping fields ∧ (field? "value" fields).getD .null = value := by
  cases item with
  | mapping fields =>
      cases hkey : field? "key" fields with
      | none => simp [metadataPair?, hkey]
      | some found => cases found <;> simp [metadataPair?, hkey]
  | scalar | list | set | pair => simp [metadataPair?, FieldIs]

theorem field?_pairs_eq_none (hkey : ∀ item ∈ items, ¬ item.FieldIs "key" (.text key)) :
    field? key (items.filterMap metadataPair?).reverse = none := by
  refine field?_eq_none_iff.mpr fun pair hpair hname => ?_
  obtain ⟨item, hitem, hfound⟩ := List.mem_filterMap.mp (List.mem_reverse.mp hpair)
  obtain ⟨name, value⟩ := pair
  obtain rfl : name = .text key := hname
  exact hkey item hitem (metadataPair?_eq_some_iff.mp hfound).1

/-- The pairs of some items have the value of the last one under a key. -/
theorem HoldsUnder.field?_pairs {value : Option Raw} (h : HoldsUnder items key value) :
    field? key (ofAssignments (items.filterMap metadataPair?)) = value := by
  rw [field?_ofAssignments]
  cases value with
  | none => exact field?_pairs_eq_none h
  | some value =>
      obtain ⟨before, item, after, rfl, hkey, hvalue, hlater⟩ := h
      have hitem : metadataPair? item = some (.text key, value) := by
        obtain ⟨fields, rfl, hfield⟩ := hvalue
        exact metadataPair?_eq_some_iff.mpr ⟨hkey, fields, rfl, by rw [hfield]; rfl⟩
      rw [List.filterMap_append, List.filterMap_cons_some hitem, List.reverse_append,
        List.reverse_cons, field?_append, field?_append, field?_pairs_eq_none hlater,
        Option.none_or, field?_cons_self, Option.some_or]

/-! ## Lifting -/

/-- Some metadata document an enum with this description and these descriptions of its values, as
far as they are given.  Other items may have any scalars as keys. -/
structure MetadataDocument (items : List Raw) (description : Option String)
    (values : Option (List (Scalar × Raw))) : Prop where
  keys : ∀ item ∈ items, ∀ key, item.FieldIs "key" key → ¬ key.IsCompound
  description : HoldsUnder items enumDescriptionKey (description.map .text)
  values : HoldsUnder items enumValueDescriptionsKey (values.map .mapping)

/-- Some fields are the documentation of an enum with this description and these descriptions of
its values, as far as they are given. -/
structure DocsDocument (docs : List (Scalar × Raw)) (description : Option String)
    (values : Option (List (Scalar × Raw))) : Prop where
  description : field? "description" docs = description.map .text
  values : field? "value_descriptions" docs = values.map .mapping

variable {description : Option String} {values : Option (List (Scalar × Raw))}

theorem given?_eq_of_field? {value : Option Raw} (h : field? key fields = value)
    (hnull : value ≠ some .null) : given? key fields = value := by
  rw [given?, h]
  split
  · exact absurd rfl hnull
  · rfl

/-- The documentation that is lifted from such metadata. -/
def liftedDocs (description : Option String) (values : Option (List (Scalar × Raw))) :
    List (Scalar × Raw) :=
  [(.text "description", (description.map Raw.text).getD .null),
    (.text "value_descriptions", .mapping (values.getD []))]

theorem MetadataDocument.liftMetadata_eq (hitems : MetadataDocument items description values)
    (hmeta : field? "meta" fields = some (.list items)) (hdocs : given? "docs" fields = none)
    (hgiven : description.isSome ∨ values.isSome) :
    liftMetadata fields = .ok (Raw.insert (.text "docs")
      (.mapping (liftedDocs description values)) (without "meta" fields)) := by
  have hothers : given? "docs" (without "meta" fields) = none := by
    rw [given?, field?_without (by decide)]
    exact hdocs
  have hentries : metadataEntries (.list items) =
      .ok (ofAssignments (items.filterMap metadataPair?)) := by
    have hpairs := metadataPairs_eq_ok hitems.keys
    cases items with
    | nil => rfl
    | cons item rest => simp [metadataEntries, Raw.isEmpty, hpairs, Except.map]
  have hdescription := given?_eq_of_field? hitems.description.field?_pairs
    (by cases description <;> simp)
  have hvalues := given?_eq_of_field? hitems.values.field?_pairs (by cases values <;> simp)
  have hsome : ((description.map Raw.text).isNone && (values.map Raw.mapping).isNone) = false := by
    cases description <;> cases values <;> simp_all
  -- Descriptions of values that are missing are as good as none.
  have hmapping : (if ((values.map Raw.mapping).getD .null).isEmpty then Raw.mapping []
      else (values.map Raw.mapping).getD .null) = .mapping (values.getD []) := by
    rcases values with _ | _ | _ <;> rfl
  simp only [liftMetadata, hmeta, hothers, hentries, Except.map, hdescription, hvalues, hsome,
    Bool.false_eq_true, if_false, hmapping, liftedDocs, ofFields, List.map]

/-- Documentation that is lifted is read like that which stands in its place.  What is not given is
null or empty in the one and missing in the other. -/
theorem DocsDocument.read_eq (hdocs : DocsDocument docs description values) :
    EnumDocs.read (.mapping (liftedDocs description values)) = EnumDocs.read (.mapping docs) := by
  have hdescription : optionalField "description" none (readNullable readText)
      (liftedDocs description values) =
        optionalField "description" none (readNullable readText) docs := by
    rw [optionalField, optionalField, hdocs.description]
    cases description <;> rfl
  have hvalues : optionalField "value_descriptions" [] readValueDescriptions
      (liftedDocs description values) =
        optionalField "value_descriptions" [] readValueDescriptions docs := by
    rw [optionalField, optionalField, hdocs.values]
    cases values <;> rfl
  simp only [EnumDocs.read, readModel, hdescription, hvalues]

/-! ## Reading -/

theorem liftMetadata_of_none (hmeta : field? "meta" fields = none) :
    liftMetadata fields = .ok fields := by
  rw [liftMetadata, hmeta]

theorem exists_liftMetadata_of_given (hdocs : given? "docs" fields ≠ none) :
    ∃ lifted, liftMetadata fields = .ok lifted ∧ field? "docs" lifted = field? "docs" fields := by
  cases hmeta : field? "meta" fields with
  | none => exact ⟨fields, liftMetadata_of_none hmeta, rfl⟩
  | some metadata =>
      have hrest : field? "docs" (without "meta" fields) = field? "docs" fields :=
        field?_without (by decide)
      obtain ⟨docs, hgiven⟩ := Option.ne_none_iff_exists'.mp hdocs
      have hothers : given? "docs" (without "meta" fields) = some docs := by
        rw [given?, hrest]
        exact hgiven
      exact ⟨without "meta" fields, by simp only [liftMetadata, hmeta, hothers], hrest⟩

theorem optionalField_insert_docs (docs others : List (Scalar × Raw)) :
    optionalField "docs" none (readNullable EnumDocs.read)
        (Raw.insert (.text "docs") (.mapping docs) others) =
      ((EnumDocs.read (.mapping docs)).map some).within (.key "docs") := by
  rw [optionalField, field?_insert, if_pos rfl]
  rfl

/-- **Two places for one documentation.**  An enum without documentation in its place is read from
metadata that document it as if the same documentation stood there and the metadata did not.  Where
documentation is given, an enum is read as if there were no metadata at all. -/
theorem EnumType.read_eq_of_documents (fields : List (Scalar × Raw)) :
    (∀ items description values docs, field? "meta" fields = some (.list items) →
        given? "docs" fields = none → MetadataDocument items description values →
        description.isSome ∨ values.isSome → DocsDocument docs description values →
        EnumType.read (.mapping fields) = EnumType.read
          (.mapping (Raw.insert (.text "docs") (.mapping docs) (without "meta" fields)))) ∧
      (given? "docs" fields ≠ none →
        EnumType.read (.mapping fields) = EnumType.read (.mapping (without "meta" fields))) := by
  constructor
  · intro items description values docs hmeta hgiven hitems hsome hdocs
    have hlifted := hitems.liftMetadata_eq hmeta hgiven hsome
    have hkept : liftMetadata (Raw.insert (.text "docs") (.mapping docs) (without "meta" fields)) =
        .ok (Raw.insert (.text "docs") (.mapping docs) (without "meta" fields)) := by
      refine liftMetadata_of_none ?_
      rw [field?_insert_of_ne (by decide), field?_without_self]
    -- Apart from the documentation both are read from the same fields.
    have hplain : ∀ name, "docs" ≠ name → "meta" ≠ name →
        field? name (Raw.insert (.text "docs") (.mapping docs) (without "meta" fields)) =
          field? name fields := by
      intro name hdocs hmeta
      rw [field?_insert_of_ne hdocs, field?_without hmeta]
    rw [read_of_lifted hlifted, read_of_lifted hkept,
      requiredField_congr (hplain "name" (by decide) (by decide)),
      optionalField_congr (hplain "members" (by decide) (by decide)), optionalField_insert_docs,
      optionalField_insert_docs, hdocs.read_eq]
  · intro hgiven
    obtain ⟨lifted, hlifted, hdocs⟩ := exists_liftMetadata_of_given hgiven
    have hkept : liftMetadata (without "meta" fields) = .ok (without "meta" fields) :=
      liftMetadata_of_none (field?_without_self _ _)
    have hplain : ∀ name, "meta" ≠ name →
        field? name (without "meta" fields) = field? name fields := fun name => field?_without
    rw [read_of_lifted hlifted, read_of_lifted hkept,
      requiredField_congr (hplain "name" (by decide)),
      optionalField_congr (hplain "members" (by decide)),
      optionalField_congr ((hplain "docs" (by decide)).trans hdocs.symm)]

/-- Metadata with both parts of a documentation among other items. -/
def moodMetadata : List Raw :=
  [.text "generated", .ofFields [("key", .text "owner"), ("value", .text "shelter")],
    .ofFields [("key", .text enumValueDescriptionsKey),
      ("value", .ofFields [("wild", .text "Runs about.")])],
    .null, .ofFields [("key", .text enumDescriptionKey), ("value", .text "How a pet feels.")]]

/-- An enum with these further fields. -/
def moodFields (more : List (Scalar × Raw)) : List (Scalar × Raw) :=
  (.text "name", .text "Mood") :: (.text "members", .list [.text "calm", .text "wild"]) :: more

/-- The same documentation as it stands in its place. -/
def moodDocs : List (Scalar × Raw) :=
  [(.text "value_descriptions", .ofFields [("wild", .text "Runs about.")]),
    (.text "description", .text "How a pet feels.")]

/-- What is described in either form. -/
def mood : EnumType where
  name := "Mood"
  members := [.text "calm", .text "wild"]
  docs := some ⟨some "How a pet feels.", [("wild", "Runs about.")]⟩

theorem metadataDocument_moodMetadata : MetadataDocument moodMetadata (some "How a pet feels.")
    (some [(.text "wild", .text "Runs about.")]) where
  keys := by
    simp [moodMetadata, FieldIs, ofFields, field?, IsCompound]
  description := ⟨moodMetadata.take 4, _, [], rfl, fieldIs_mapping.mpr rfl, fieldIs_mapping.mpr rfl,
    nofun⟩
  values := ⟨moodMetadata.take 2, _, moodMetadata.drop 3, rfl, fieldIs_mapping.mpr rfl,
    fieldIs_mapping.mpr rfl, by
      simp [moodMetadata, FieldIs, ofFields, field?, enumDescriptionKey,
        enumValueDescriptionsKey]⟩

/-- An enum with these metadata is the same as with the documentation in its place, and where that
is given the metadata do not count. -/
theorem mood_read_alike :
    given? "docs" (moodFields [(.text "meta", .list moodMetadata)]) = none ∧
      EnumType.read (.mapping (moodFields [(.text "meta", .list moodMetadata)])) = .valid mood ∧
      EnumType.read (.mapping (moodFields [(.text "docs", .mapping moodDocs)])) = .valid mood ∧
      EnumType.read (.mapping (moodFields [(.text "meta", .list moodMetadata),
        (.text "docs", .mapping [])])) = .valid { mood with docs := some ⟨none, []⟩ } := by
  have hdocs : EnumType.read (.mapping (moodFields [(.text "docs", .mapping moodDocs)])) =
      .valid mood := by cbv
  have hnone : given? "docs" (moodFields [(.text "meta", .list moodMetadata)]) = none := by rfl
  refine ⟨hnone, ?_, hdocs, ?_⟩
  · rw [(EnumType.read_eq_of_documents _).1 _ _ _ moodDocs rfl hnone metadataDocument_moodMetadata
      (.inl rfl) ⟨rfl, rfl⟩]
    exact hdocs
  · rw [(EnumType.read_eq_of_documents _).2 (by simp [moodFields, given?, field?])]
    cbv

end ServiceManual
