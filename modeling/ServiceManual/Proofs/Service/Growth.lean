import ServiceManual.Proofs.Loading
import ServiceManual.Proofs.Rule.Growth
import ServiceManual.Proofs.Service.RoundTrip

/-!
# Descriptions that grow

What a newer program adds to a description, an older one must be able to leave aside.  A
description grows when fields that their models do not declare are added to objects anywhere in it,
and rules with identifiers that are not known are put anywhere into its lists of rules
(`Service.schema`).  Each model is read as before but for the rules of unknown kind, and these are
not shown.  So a description that has grown is read, and it gives the same documents
(`Service.ofRaw_of_grows`).
-/

namespace ServiceManual

open Raw Checked
open scoped Relator

theorem map_eq_of_forall₂ {α β : Type} {g : α → β} {items others : List α}
    (h : List.Forall₂ (InvImage Eq g) items others) : items.map g = others.map g := by
  rw [← List.forall₂_eq_eq_eq, List.forall₂_map_left_iff, List.forall₂_map_right_iff]
  exact h

theorem eq_of_keyed {κ α : Type} {entries others : List (κ × α)}
    (h : List.Forall₂ (Keyed Eq) entries others) : entries = others := by
  rw [← List.forall₂_eq_eq_eq]
  exact h.imp fun _ _ hentry => Prod.ext hentry.1 hentry.2

theorem mapContents_eq_of_keyed {α β : Type} {g : α → β} {table other : Table α}
    (h : List.Forall₂ (Keyed (InvImage Eq g)) table other) :
    table.mapContents g = other.mapContents g :=
  map_eq_of_forall₂ (h.imp fun _ _ hentry => Prod.ext hentry.1 hentry.2)

/-! ## References and members -/

def TypeReference.schema : Schema :=
  [("kind", Eq), ("type_name", Eq), ("is_array", Eq)]

def Member.schema : Schema :=
  [("name", Eq), ("required", Eq), ("description", Eq), ("rules", Rule.FieldGrows),
    ("value", TypeReference.schema.Grows)]

def ReturnValue.schema : Schema :=
  [("value", TypeReference.schema.Grows), ("description", Eq)]

def Method.schema : Schema :=
  [("name", Eq), ("description", Eq), ("parameters", ItemsGrow Member.schema.Grows),
    ("returns", ReturnValue.schema.Grows)]

def Interface.schema : Schema :=
  [("name", Eq), ("description", Eq), ("methods", ItemsGrow Method.schema.Grows)]

theorem TypeReference.follows_read :
    (schema.Grows ⇒ Follows Eq) TypeReference.read TypeReference.read := by
  refine Schema.follows_readModel _ ?_ fun _ => rfl
  intro fields more hmore
  have hkind := hmore.follows_optional "kind" rfl (follows_eq ReferenceKind.read)
    (Eq.refl .complex)
  have hname := hmore.follows_required "type_name" rfl (follows_eq readText)
  have harray := hmore.follows_optional "is_array" rfl (follows_eq readFlag) (Eq.refl false)
  refine ((hkind.map ?_).apply hname).apply harray
  rintro kind _ rfl name _ rfl array _ rfl
  rfl

/-- A member that has grown is the same but for rules of which nothing is shown. -/
theorem Member.follows_read (model : String) :
    (schema.Grows ⇒ Follows (InvImage Eq (mapRules Rule.shownOf))) (Member.read model)
      (Member.read model) := by
  refine Schema.follows_readModel _ ?_ fun _ => rfl
  intro fields more hmore
  have hname := hmore.follows_required "name" rfl (follows_eq readText)
  have hrequired := hmore.follows_optional "required" rfl (follows_eq readFlag) (Eq.refl false)
  have hdescription := hmore.follows_optional "description" rfl (follows_eq readParagraphs)
    (Eq.refl [])
  have hrules := hmore.follows_optional "rules" rfl Rule.follows_readList
    (Eq.refl (Rule.shownOf []))
  have hvalue := hmore.follows_required "value" rfl TypeReference.follows_read
  refine ((((hname.map ?_).apply hrequired).apply hdescription).apply hrules).apply hvalue
  rintro name _ rfl required _ rfl description _ rfl rules others hrules value _ rfl
  exact congrArg (fun rules => Member.mk name required description rules value) hrules

theorem ReturnValue.follows_read :
    (schema.Grows ⇒ Follows Eq) ReturnValue.read ReturnValue.read := by
  refine Schema.follows_readModel _ ?_ fun _ => rfl
  intro fields more hmore
  have hvalue := hmore.follows_required "value" rfl TypeReference.follows_read
  have hdescription := hmore.follows_optional "description" rfl (follows_eq readParagraphs)
    (Eq.refl [])
  refine (hvalue.map ?_).apply hdescription
  rintro value _ rfl description _ rfl
  rfl

theorem Method.follows_read :
    (schema.Grows ⇒ Follows (InvImage Eq (mapRules Rule.shownOf))) Method.read Method.read := by
  refine Schema.follows_readModel _ ?_ fun _ => rfl
  intro fields more hmore
  have hname := hmore.follows_required "name" rfl (follows_eq readText)
  have hdescription := hmore.follows_optional "description" rfl (follows_eq readParagraphs)
    (Eq.refl [])
  have hparameters := hmore.follows_optional "parameters" rfl
    (follows_readList (Member.follows_read "Parameter") fun _ => rfl) .nil
  have hreturns := hmore.follows_optional "returns" rfl
    (Schema.follows_readNullable ReturnValue.follows_read) (Eq.refl none)
  refine (((hname.map ?_).apply hdescription).apply hparameters).apply hreturns
  rintro name _ rfl description _ rfl parameters others hparameters returns _ rfl
  exact congrArg (fun parameters => Method.mk name description parameters returns)
    (map_eq_of_forall₂ hparameters)

theorem Interface.follows_read :
    (schema.Grows ⇒ Follows (InvImage Eq (mapRules Rule.shownOf))) Interface.read
      Interface.read := by
  refine Schema.follows_readModel _ ?_ fun _ => rfl
  intro fields more hmore
  have hname := hmore.follows_required "name" rfl (follows_eq readText)
  have hdescription := hmore.follows_optional "description" rfl (follows_eq readParagraphs)
    (Eq.refl [])
  have hmethods := hmore.follows_optional "methods" rfl
    (follows_readList Method.follows_read fun _ => rfl) .nil
  refine ((hname.map ?_).apply hdescription).apply hmethods
  rintro name _ rfl description _ rfl methods others hmethods
  exact congrArg (fun methods => Interface.mk name description methods)
    (map_eq_of_forall₂ hmethods)

/-! ## Entities -/

def MapProperties.schema : Schema :=
  [("key", TypeReference.schema.Grows), ("value", TypeReference.schema.Grows)]

def ComplexType.schema : Schema :=
  [("name", Eq), ("description", Eq), ("properties", ItemsGrow Member.schema.Grows),
    ("map_properties", MapProperties.schema.Grows)]

def UnionType.schema : Schema :=
  [("name", Eq), ("description", Eq), ("members", ItemsGrow TypeReference.schema.Grows)]

def EnumDocs.schema : Schema :=
  [("description", Eq), ("value_descriptions", Eq)]

/-- The metadata of an enum is read although it is no field of the model. -/
def EnumType.schema : Schema :=
  [("name", Eq), ("members", Eq), ("docs", EnumDocs.schema.Grows), ("meta", Eq)]

theorem MapProperties.follows_read :
    (schema.Grows ⇒ Follows Eq) MapProperties.read MapProperties.read := by
  refine Schema.follows_readModel _ ?_ fun _ => rfl
  intro fields more hmore
  have hkey := hmore.follows_required "key" rfl TypeReference.follows_read
  have hvalue := hmore.follows_required "value" rfl TypeReference.follows_read
  refine (hkey.map ?_).apply hvalue
  rintro key _ rfl value _ rfl
  rfl

theorem ComplexType.follows_read :
    (schema.Grows ⇒ Follows (InvImage Eq (mapRules Rule.shownOf))) ComplexType.read
      ComplexType.read := by
  refine Schema.follows_readModel _ ?_ fun _ => rfl
  intro fields more hmore
  have hname := hmore.follows_required "name" rfl (follows_eq readText)
  have hdescription := hmore.follows_optional "description" rfl (follows_eq readParagraphs)
    (Eq.refl [])
  have hproperties := hmore.follows_optional "properties" rfl
    (follows_readList (Member.follows_read "Property") fun _ => rfl) .nil
  have hmap := hmore.follows_optional "map_properties" rfl
    (Schema.follows_readNullable MapProperties.follows_read) (Eq.refl none)
  refine (((hname.map ?_).apply hdescription).apply hproperties).apply hmap
  rintro name _ rfl description _ rfl properties others hproperties map _ rfl
  exact congrArg (fun properties => ComplexType.mk name description properties map)
    (map_eq_of_forall₂ hproperties)

theorem UnionType.follows_read :
    (schema.Grows ⇒ Follows Eq) UnionType.read UnionType.read := by
  refine Schema.follows_readModel _ ?_ fun _ => rfl
  intro fields more hmore
  have hname := hmore.follows_required "name" rfl (follows_eq readText)
  have hdescription := hmore.follows_optional "description" rfl (follows_eq readParagraphs)
    (Eq.refl [])
  have hmembers := hmore.follows_optional "members" rfl
    (follows_readList TypeReference.follows_read fun _ => rfl) .nil
  refine ((hname.map ?_).apply hdescription).apply hmembers
  rintro name _ rfl description _ rfl members others hmembers
  rw [List.forall₂_eq_eq_eq] at hmembers
  rw [hmembers]

theorem EnumDocs.follows_read :
    (schema.Grows ⇒ Follows Eq) EnumDocs.read EnumDocs.read := by
  refine Schema.follows_readModel _ ?_ fun _ => rfl
  intro fields more hmore
  have hdescription := hmore.follows_optional "description" rfl
    (follows_eq (readNullable readText)) (Eq.refl none)
  have htable := hmore.follows_optional "value_descriptions" rfl
    (follows_eq readValueDescriptions) (Eq.refl [])
  refine (hdescription.map ?_).apply htable
  rintro description _ rfl table _ rfl
  rfl

namespace EnumType

variable {fields more lifted : List (Scalar × Raw)}

/-- Documentation that is given stays given, and none comes about. -/
theorem given?_docs_eq_none_iff (h : schema.FieldsGrow fields more) :
    given? "docs" fields = none ↔ given? "docs" more = none := by
  have hdocs : schema.lookup "docs" = some EnumDocs.schema.Grows := rfl
  unfold given?
  rcases h.field?_cases hdocs with ⟨hbefore, hafter⟩ | ⟨value, grown, hbefore, hafter, hvalue⟩
  · rw [hbefore, hafter]
  · rw [hbefore, hafter]
    cases hvalue <;> simp

theorem exists_liftMetadata (h : schema.FieldsGrow fields more)
    (hlift : liftMetadata fields = .ok lifted) :
    ∃ other, liftMetadata more = .ok other ∧ schema.FieldsGrow lifted other := by
  have hmeta : field? "meta" fields = field? "meta" more := h.field?_eq rfl
  have hothers := h.without "meta"
  unfold liftMetadata at hlift ⊢
  rw [← hmeta]
  cases hvalue : field? "meta" fields with
  | none =>
      simp only [hvalue, Except.ok.injEq] at hlift
      exact ⟨more, rfl, hlift ▸ h⟩
  | some metadata =>
      simp only [hvalue] at hlift ⊢
      cases hdocs : given? "docs" (without "meta" fields) with
      | some docs =>
          -- Documentation that is given goes before that in the metadata.
          obtain ⟨others, hdocs'⟩ := Option.ne_none_iff_exists'.mp
            (mt (given?_docs_eq_none_iff hothers).mpr (by simp [hdocs]))
          simp only [hdocs, Except.ok.injEq] at hlift
          exact ⟨_, by rw [hdocs'], hlift ▸ hothers⟩
      | none =>
          rw [(given?_docs_eq_none_iff hothers).mp hdocs]
          simp only [hdocs] at hlift
          cases hentries : metadataEntries metadata with
          | error fault => simp [hentries, Except.map] at hlift
          | ok entries =>
              simp only [hentries, Except.map, Except.ok.injEq] at hlift ⊢
              refine ⟨_, rfl, ?_⟩
              subst hlift
              split
              · exact hothers
              · -- What is lifted is made from the metadata alone, which is the same.
                exact hothers.insert rfl (.same _)

theorem follows_read : (schema.Grows ⇒ Follows Eq) EnumType.read EnumType.read := by
  refine Schema.follows_readModel _ ?_ fun _ => rfl
  intro given more hgiven
  cases hlift : liftMetadata given with
  | error fault =>
      intro _ hvalid
      simp [hlift] at hvalid
  | ok fields =>
      obtain ⟨others, hothers, hmore⟩ := exists_liftMetadata hgiven hlift
      simp only [hlift, hothers]
      -- What has been lifted has grown as well, so its fields are read as before.
      have hname := hmore.follows_required "name" rfl (follows_eq readText)
      have hmembers := hmore.follows_optional "members" rfl (follows_eq (readList readLiteral))
        (Eq.refl [])
      have hdocs := hmore.follows_optional "docs" rfl
        (Schema.follows_readNullable EnumDocs.follows_read) (Eq.refl none)
      refine ((hname.map ?_).apply hmembers).apply hdocs
      rintro name _ rfl members _ rfl docs _ rfl
      rfl

end EnumType

/-! ## Tables of entities -/

/-- Entities grow, whether they are given in a list or under names. -/
def EntitiesGrow (R : Raw → Raw → Prop) (value grown : Raw) : Prop :=
  ItemsGrow R value grown ∨ EntriesGrow R value grown

section Entities

variable {schema : Schema} {value grown keyed : Raw}

theorem exists_namedItems (hname : schema.lookup "name" = some Eq) {items others : List Raw}
    {named : List (Scalar × Raw)} (hitems : List.Forall₂ schema.Grows items others)
    (hnamed : namedItems items = .ok named) :
    ∃ more, namedItems others = .ok more ∧ List.Forall₂ (Keyed schema.Grows) named more := by
  induction hitems generalizing named with
  | nil => exact ⟨[], rfl, by simpa [namedItems] using hnamed.symm⟩
  | @cons item other items others hitem _ ih =>
      obtain ⟨fields, key, rest, rfl, hkey, hrest, rfl⟩ := namedItems_cons_eq_ok_iff.mp hnamed
      obtain ⟨more, hmore, hentries⟩ := ih hrest
      cases hitem with
      | same item =>
          exact ⟨_, namedItems_cons_eq_ok_iff.mpr ⟨fields, key, more, rfl, hkey, hmore, rfl⟩,
            .cons ⟨rfl, .same _⟩ hentries⟩
      | @mapping _ added hfields =>
          rw [hfields.field?_eq hname] at hkey
          exact ⟨_, namedItems_cons_eq_ok_iff.mpr ⟨added, key, more, rfl, hkey, hmore, rfl⟩,
            .cons ⟨rfl, .mapping hfields⟩ hentries⟩

/-- An entity that has grown takes its key as its name if it did so before. -/
theorem namedByKey_keyed (hname : schema.lookup "name" = some Eq) {key : Scalar}
    (hvalue : schema.Grows value grown) :
    Keyed schema.Grows (namedByKey (key, value)) (namedByKey (key, grown)) := by
  cases hvalue with
  | same value => exact ⟨rfl, .same _⟩
  | @mapping fields more hfields =>
      have hsame : schema.ValueGrows (.text "name") (.scalar key) (.scalar key) := by
        rw [Schema.valueGrows_of_lookup hname]
      simp only [namedByKey, ← hfields.field?_eq hname]
      cases field? "name" fields with
      | some name => exact ⟨rfl, .mapping hfields⟩
      | none => exact ⟨rfl, .mapping (hfields.append_field hsame)⟩

theorem exists_keyedByName (hname : schema.lookup "name" = some Eq)
    (hgrows : EntitiesGrow schema.Grows value grown) (hkeyed : keyedByName value = .ok keyed) :
    ∃ other, keyedByName grown = .ok other ∧ EntriesGrow schema.Grows keyed other := by
  rcases hgrows with hlist | htable
  · cases hlist with
    | same value => exact ⟨keyed, hkeyed, .same _⟩
    | @list items others hitems =>
        cases hnamed : namedItems items with
        | error fault => simp [keyedByName, hnamed, Except.map] at hkeyed
        | ok named =>
            obtain ⟨more, hmore, hentries⟩ := exists_namedItems hname hitems hnamed
            simp only [keyedByName, hnamed, Except.map, Except.ok.injEq] at hkeyed
            subst hkeyed
            refine ⟨.mapping (ofAssignments more), ?_,
              .mapping (assigned_keyed Scalar.sameKey hentries)⟩
            simp only [keyedByName, hmore, Except.map]
  · cases htable with
    | same value => exact ⟨keyed, hkeyed, .same _⟩
    | @mapping entries others hentries =>
        simp only [keyedByName, Except.ok.injEq] at hkeyed
        subst hkeyed
        refine ⟨_, rfl, .mapping ?_⟩
        -- Every entry has grown under its own key.
        rw [List.forall₂_map_left_iff, List.forall₂_map_right_iff]
        refine hentries.imp ?_
        rintro ⟨key, value⟩ ⟨_, grown⟩ ⟨rfl, hvalue⟩
        exact namedByKey_keyed hname hvalue

theorem follows_readEntities {α : Type} {S : α → α → Prop} {read : Raw → Checked α}
    (hname : schema.lookup "name" = some Eq) (hread : (schema.Grows ⇒ Follows S) read read)
    (hrefl : ∀ a, S a a) : (EntitiesGrow schema.Grows ⇒ Follows (List.Forall₂ (Keyed S)))
      (readEntities read) (readEntities read) := by
  intro value grown hgrows
  unfold readEntities
  cases hkeyed : keyedByName value with
  | error fault =>
      intro _ hvalid
      cases hvalid
  | ok keyed =>
      obtain ⟨other, hother, hentries⟩ := exists_keyedByName hname hgrows hkeyed
      rw [hother]
      exact follows_readTable hread hrefl hentries

end Entities

/-! ## Services -/

def Service.schema : Schema :=
  [("title", Eq), ("major_version", Eq), ("source_path", Eq),
    ("interfaces", ItemsGrow Interface.schema.Grows),
    ("types", EntitiesGrow ComplexType.schema.Grows),
    ("enums", EntitiesGrow EnumType.schema.Grows),
    ("unions", EntitiesGrow UnionType.schema.Grows)]

namespace Service

variable {value grown : Raw} {service other : Service}

/-- A service whose description has grown is the same but for rules of which nothing is shown. -/
theorem follows_read :
    (schema.Grows ⇒ Follows (InvImage Eq (mapRules Rule.shownOf))) Service.read Service.read := by
  refine Schema.follows_readModel _ ?_ fun _ => rfl
  intro fields more hmore
  have htitle := hmore.follows_required "title" rfl (follows_eq readText)
  have hversion := hmore.follows_optional "major_version" rfl (follows_eq readInteger) (Eq.refl 1)
  have hsource := hmore.follows_optional "source_path" rfl (follows_eq (readNullable readText))
    (Eq.refl none)
  have hinterfaces := hmore.follows_optional "interfaces" rfl
    (follows_readList Interface.follows_read fun _ => rfl) .nil
  have htypes := hmore.follows_optional "types" rfl
    (follows_readEntities rfl ComplexType.follows_read fun _ => rfl) .nil
  have henums := hmore.follows_optional "enums" rfl
    (follows_readEntities rfl EnumType.follows_read fun _ => rfl) .nil
  have hunions := hmore.follows_optional "unions" rfl
    (follows_readEntities rfl UnionType.follows_read fun _ => rfl) .nil
  refine ((((((htitle.map ?_).apply hversion).apply hsource).apply hinterfaces).apply htypes).apply
    henums).apply hunions
  -- Only interfaces and types hold rules; the rest is the same.
  rintro title _ rfl version _ rfl source _ rfl interfaces others hinterfaces types tables htypes
    enums _ henums unions _ hunions
  obtain rfl := eq_of_keyed henums
  obtain rfl := eq_of_keyed hunions
  have hinterfaces := map_eq_of_forall₂ hinterfaces
  have htypes := mapContents_eq_of_keyed htypes
  simp only [InvImage, mapRules, hinterfaces, htypes]

theorem document_eq_of_shown
    (hshown : service.mapRules Rule.shownOf = other.mapRules Rule.shownOf)
    (banner : Option (List String)) :
    service.interfaces.map (service.document banner) =
      other.interfaces.map (other.document banner) := by
  have hdocuments : ∀ service : Service, service.interfaces.map (service.document banner) =
      (service.mapRules Rule.shownOf).interfaces.map
        ((service.mapRules Rule.shownOf).document banner) := by
    intro service
    rw [mapRules, List.map_map]
    exact List.map_congr_left fun interface _ =>
      (document_mapRules Rule.keepsShown_shown? banner interface).symm
  rw [hdocuments service, hdocuments other, hshown]

/-- **Newer descriptions stay readable.**  If a service is read from a description and the
description grows, then a service is read again.  The two are the same but for their rules of
unknown kind; the documents of their interfaces have the same lines, under any banner; and the same
pages can be made, or the same keeps them from being made. -/
theorem ofRaw_of_grows {path : Option Path} (hread : ofRaw path value = .ok service)
    (hgrows : schema.Grows value grown) :
    ∃ newer, ofRaw path grown = .ok newer ∧
      newer.withoutUnknownRules = service.withoutUnknownRules ∧
      (∀ banner, newer.interfaces.map (fun interface => (newer.document banner interface).lines) =
        service.interfaces.map fun interface => (service.document banner interface).lines) ∧
      (∀ configuration package, Manual.pages? newer configuration package =
        Manual.pages? service configuration package) ∧
      Manual.firstObstacle newer = Manual.firstObstacle service := by
  rw [ofRaw_eq_ok_iff] at hread
  obtain ⟨newer, hnewer, hsame⟩ := follows_read hgrows service hread
  -- All that is printed depends on what is shown of the rules.
  have hshown : newer.mapRules Rule.shownOf = service.mapRules Rule.shownOf := hsame.symm
  refine ⟨newer, ofRaw_eq_ok_iff.mpr hnewer, ?_, fun banner => ?_,
    fun configuration package => ?_, ?_⟩
  · rw [← withoutUnknownRules_mapRules newer, hshown, withoutUnknownRules_mapRules]
  · have hlines := congrArg (List.map Document.lines) (document_eq_of_shown hshown banner)
    rw [List.map_map, List.map_map] at hlines
    exact hlines
  · rw [← Manual.pages?_mapRules Rule.keepsShown_shown?, hshown,
      Manual.pages?_mapRules Rule.keepsShown_shown?]
  · rw [← Manual.firstObstacle_mapRules Rule.keepsShown_shown?, hshown,
      Manual.firstObstacle_mapRules Rule.keepsShown_shown?]

end Service

/-- A description of a type whose property has these rules and these fields, and of a method that
returns a value of that type. -/
def meals (rules : List Raw) (more : List (String × Raw)) : Raw :=
  .ofFields [("title", .text "Pets"),
    ("interfaces", .list [.ofFields [("name", .text "pet"),
      ("methods", .list [.ofFields [("name", .text "feed"),
        ("returns", .ofFields [("value", .ofFields [("type_name", .text "Meal")])])]])]]),
    ("types", .list [.ofFields [("name", .text "Meal"),
      ("properties", .list [.ofFields (("name", .text "servings") ::
        ("value", .ofFields [("kind", .text "primitive"), ("type_name", .text "integer")]) ::
        ("rules", .list rules) :: more)])]])]

/-- The interface that is described by that. -/
def mealInterface : Interface :=
  ⟨"pet", [], [⟨"feed", [], [], some ⟨⟨.complex, "Meal", false⟩, []⟩⟩]⟩

/-- The service that is described by that. -/
def servedMeals (rules : List Rule) : Service where
  title := "Pets"
  majorVersion := 1
  sourcePath := none
  interfaces := [mealInterface]
  types := [("Meal", ⟨"Meal", [],
    [⟨"servings", false, [], rules, ⟨.primitive, "integer", false⟩⟩], none⟩)]
  enums := []
  unions := []

/-- A rule with this identifier and an operand under this key. -/
def ruleWith (id : Raw) (key : Scalar) : Raw :=
  .mapping [(.text "id", id), (key, rawInteger 9)]

theorem isForeign_ruleWith {id name : String} (hid : RuleKind.ofId? id = none)
    (hname : name ≠ "id") (hencoded : Text.hasSurrogate name = false) :
    Rule.IsForeign (ruleWith (.text id) (.text name)) := by
  refine ⟨_, id, rfl, field?_cons_self _, hid, fun entry hentry => ?_⟩
  have hentry : entry = (.text name, rawInteger 9) := by
    simpa [Raw.without, hname] using hentry
  exact ⟨name, by rw [hentry], hencoded⟩

/-- A description with a limit on a property. -/
def plainMeals : Raw := meals [ruleWith (.text "NumberLTE") (.text "value")] []

/-- The same from a newer program, with a rule of a kind that is not known and one more field. -/
def newerMeals : Raw :=
  meals [ruleWith (.text "PerDay") (.text "value"), ruleWith (.text "NumberLTE") (.text "value")]
    [("since", .text "2.0")]

/-- The newer description is read like the plain one. -/
theorem newerMeals_read_like_plainMeals :
    Service.ofRaw none plainMeals = .ok (servedMeals [.compare .lessOrEqual (.integer 9)]) ∧
      Service.schema.Grows plainMeals newerMeals ∧
      ∃ newer, Service.ofRaw none newerMeals = .ok newer ∧
        newer.withoutUnknownRules = servedMeals [.compare .lessOrEqual (.integer 9)] ∧
        Manual.pages? newer {} .default =
          Manual.pages? (servedMeals [.compare .lessOrEqual (.integer 9)]) {} .default := by
  have hread : Service.ofRaw none plainMeals =
      .ok (servedMeals [.compare .lessOrEqual (.integer 9)]) := rfl
  have hforeign : Rule.IsForeign (ruleWith (.text "PerDay") (.text "value")) :=
    isForeign_ruleWith (by decide) (by decide) (by decide)
  have hgrows : Service.schema.Grows plainMeals newerMeals := by
    -- Down to the type, to its property, and to the rules of that.
    refine .mapping (.keep rfl (.keep (.same _) (.keep (.inl (.list (.cons ?_ .nil))) .nil)))
    refine .mapping (.keep rfl (.keep (.list (.cons ?_ .nil)) .nil))
    refine .mapping (.keep rfl (.keep (.same _) (.keep ?_ (.add Bool.false_ne_true .nil))))
    exact .list (.insert hforeign (.keep (.same _) .nil))
  obtain ⟨newer, hnewer, hsame, -, hpages, -⟩ := Service.ofRaw_of_grows hread hgrows
  exact ⟨hread, hgrows, newer, hnewer, hsame, hpages {} .default⟩

/-- A text without encoding. -/
def loneSurrogate : String := .singleton (Char.ofNat 0x10D800)

theorem isSome_pages?_servedMeals (rules : List Rule) (configuration : Configuration)
    (package : Package) : (Manual.pages? (servedMeals rules) configuration package).isSome ↔
      rules.filterMap Rule.obstacle? = [] := by
  have htypes : (Reach.ofInterface (servedMeals rules) mealInterface).types =
      (servedMeals rules).types := by cbv
  have henums : (Reach.ofInterface (servedMeals rules) mealInterface).enums = [] := by cbv
  have hversion : Manual.integerObstacle? 1 = none := by decide
  have hobstacles : Manual.obstacles (servedMeals rules) mealInterface =
      rules.filterMap Rule.obstacle? := by
    rw [Manual.obstacles, htypes, henums]
    simp [servedMeals, hversion, Manual.methodObstacles, mealInterface, sortByText,
      Manual.memberObstacles]
  have hinterfaces : (servedMeals rules).interfaces = [mealInterface] := rfl
  rw [Manual.pages?, hinterfaces]
  simp [Manual.isWritable, hobstacles]

/-- A rule of a kind that is not known makes the description unreadable if it has a key that is no
text or has no encoding.  And a rule whose identifier is given as the bytes of a known one is shown
with the operand that it gets, while no page can be made without. -/
theorem meals_not_read_alike :
    (RuleKind.ofId? "PerDay" = none ∧ (Service.ofRaw none (meals [] [])).isOk ∧
      ¬ (Service.ofRaw none (meals [ruleWith (.text "PerDay") (.integer 1)] [])).isOk ∧
      ¬ (Service.ofRaw none (meals [ruleWith (.text "PerDay") (.text loneSurrogate)] [])).isOk) ∧
    Service.ofRaw none (meals [.mapping [(.text "id", byteTag)]] []) =
        .ok (servedMeals [.unknown "ArrayMaxItems" []]) ∧
      Service.ofRaw none (meals [ruleWith byteTag (.text "max")] []) =
        .ok (servedMeals [.unknown "ArrayMaxItems" [(.text "max", rawInteger 9)]]) ∧
      ∀ configuration package,
        ¬ (Manual.pages? (servedMeals [.unknown "ArrayMaxItems" []]) configuration package).isSome ∧
        (Manual.pages? (servedMeals [.unknown "ArrayMaxItems" [(.text "max", rawInteger 9)]])
          configuration package).isSome := by
  refine ⟨⟨by decide, by decide, by decide, by decide⟩, by cbv, by cbv,
    fun configuration package => ?_⟩
  rw [isSome_pages?_servedMeals, isSome_pages?_servedMeals]
  exact ⟨by decide, by decide⟩

end ServiceManual
