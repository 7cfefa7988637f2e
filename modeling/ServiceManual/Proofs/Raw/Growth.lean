import Mathlib.Data.List.Forall2
import Mathlib.Logic.Relator
import ServiceManual.Proofs.Raw.Reading

/-!
# Values that grow

A newer program writes more into a description than an older one reads.  A schema lists the fields
that a model declares, each with the relation in which its value may grow.  A mapping grows when
fields that are not declared are put anywhere among its fields and the values of declared ones grow
(`Schema.Grows`); a list grows item by item, a table entry by entry.

A reader looks at declared fields only.  So where it gave a model it gives one again, and what the
two differ in is at most what the parts may differ in (`Checked.Follows`).  That is proved along the
readers, as a relation between functions: a reader takes values in the one relation to outcomes in
the other.
-/

namespace ServiceManual

open scoped Relator

/-! ## Outcomes -/

namespace Checked

variable {α β γ δ : Type} {S : α → γ → Prop} {T : β → δ → Prop} {x : Checked α} {y : Checked γ}

/-- Where the first reading gives something, the second gives something too, and the two are
related. -/
def Follows (S : α → γ → Prop) (x : Checked α) (y : Checked γ) : Prop :=
  ∀ a, x = .valid a → ∃ c, y = .valid c ∧ S a c

theorem follows_valid {a : α} {c : γ} (h : S a c) : Follows S (.valid a) (.valid c) := by
  intro _ hvalid
  obtain rfl := Checked.valid.inj hvalid
  exact ⟨c, rfl, h⟩

theorem follows_self {S : α → α → Prop} (hrefl : ∀ a, S a a) : Follows S x x :=
  fun a hvalid => ⟨a, hvalid, hrefl a⟩

theorem Follows.map {f : α → β} {g : γ → δ} (hfun : (S ⇒ T) f g) (h : Follows S x y) :
    Follows T (x.map f) (y.map g) := by
  intro _ hvalid
  obtain ⟨a, ha, rfl⟩ := map_eq_valid_iff.mp hvalid
  obtain ⟨c, hc, hrelated⟩ := h a ha
  exact ⟨g c, map_eq_valid_iff.mpr ⟨c, hc, rfl⟩, hfun hrelated⟩

theorem Follows.apply {f : Checked (α → β)} {g : Checked (γ → δ)} (hfun : Follows (S ⇒ T) f g)
    (h : Follows S x y) : Follows T (f.apply x) (g.apply y) := by
  intro _ hvalid
  obtain ⟨given, a, hgiven, ha, rfl⟩ := apply_eq_valid_iff.mp hvalid
  obtain ⟨other, hother, hfunction⟩ := hfun given hgiven
  obtain ⟨c, hc, hrelated⟩ := h a ha
  exact ⟨other c, apply_eq_valid_iff.mpr ⟨other, c, hother, hc, rfl⟩, hfunction hrelated⟩

theorem Follows.within (h : Follows S x y) (first second : Step) :
    Follows S (x.within first) (y.within second) := by
  intro a hvalid
  obtain ⟨c, hc, hrelated⟩ := h a (within_eq_valid_iff.mp hvalid)
  exact ⟨c, within_eq_valid_iff.mpr hc, hrelated⟩

end Checked

namespace Raw

open Checked

variable {α γ κ : Type} {R : Raw → Raw → Prop} {S : α → γ → Prop} {read : Raw → Checked α}
  {again : Raw → Checked γ}

theorem follows_eq (read : Raw → Checked α) : (Eq ⇒ Follows Eq) read read := by
  rintro value _ rfl
  exact follows_self fun _ => rfl

/-! ## Lists -/

/-- A list grows in its items. -/
inductive ItemsGrow (R : Raw → Raw → Prop) : Raw → Raw → Prop
  | same (value : Raw) : ItemsGrow R value value
  | list {items grown : List Raw} (hitems : List.Forall₂ R items grown) :
      ItemsGrow R (.list items) (.list grown)

theorem follows_readItems {items grown : List Raw} (hread : (R ⇒ Follows S) read again)
    (hitems : List.Forall₂ R items grown) (first second : Nat) :
    Follows (List.Forall₂ S) (readItems read first items) (readItems again second grown) := by
  induction hitems generalizing first second with
  | nil => exact follows_valid .nil
  | cons hitem _ ih =>
      refine Follows.apply (Follows.map ?_ ((hread hitem).within _ _)) (ih _ _)
      intro _ _ hhead _ _ htail
      exact .cons hhead htail

theorem follows_readList {S : α → α → Prop} (hread : (R ⇒ Follows S) read read)
    (hrefl : ∀ a, S a a) :
    (ItemsGrow R ⇒ Follows (List.Forall₂ S)) (readList read) (readList read) := by
  intro _ _ hlist
  cases hlist with
  | same value => exact follows_self fun _ => List.forall₂_same.mpr fun a _ => hrefl a
  | list hitems => exact follows_readItems hread hitems 0 0

/-! ## Tables -/

/-- Entries under one key with related contents. -/
def Keyed (S : α → γ → Prop) (first : κ × α) (second : κ × γ) : Prop :=
  first.1 = second.1 ∧ S first.2 second.2

/-- A table grows in the values of its entries. -/
inductive EntriesGrow (R : Raw → Raw → Prop) : Raw → Raw → Prop
  | same (value : Raw) : EntriesGrow R value value
  | mapping {entries grown : List (Scalar × Raw)}
      (hentries : List.Forall₂ (Keyed R) entries grown) :
      EntriesGrow R (.mapping entries) (.mapping grown)

theorem insertBy_keyed {same : κ → κ → Bool} {key : κ} {a : α} {c : γ}
    {entries : List (κ × α)} {others : List (κ × γ)} (hvalue : S a c)
    (hentries : List.Forall₂ (Keyed S) entries others) :
    List.Forall₂ (Keyed S) (insertBy same key a entries) (insertBy same key c others) := by
  induction hentries with
  | nil => exact .cons ⟨rfl, hvalue⟩ .nil
  | @cons entry other rest others hentry hrest ih =>
      obtain ⟨known, content⟩ := entry
      obtain ⟨_, counterpart⟩ := other
      obtain ⟨rfl, hcontent⟩ := hentry
      by_cases hsame : same known key = true
      · simp only [insertBy, hsame, if_true]
        exact .cons ⟨rfl, hvalue⟩ hrest
      · simp only [insertBy, hsame]
        exact .cons ⟨rfl, hcontent⟩ ih

theorem assigned_keyed (same : κ → κ → Bool) {entries : List (κ × α)} {others : List (κ × γ)}
    (hentries : List.Forall₂ (Keyed S) entries others) :
    List.Forall₂ (Keyed S) (assigned same entries) (assigned same others) := by
  refine List.rel_foldl (P := List.Forall₂ (Keyed S)) ?_ .nil hentries
  rintro _ _ hbefore ⟨key, a⟩ ⟨_, c⟩ ⟨rfl, hvalue⟩
  exact insertBy_keyed hvalue hbefore

theorem follows_readEntries {entries grown : List (Scalar × Raw)}
    (hread : (R ⇒ Follows S) read again) (hentries : List.Forall₂ (Keyed R) entries grown) :
    Follows (List.Forall₂ (Keyed S)) (readEntries read entries) (readEntries again grown) := by
  induction hentries with
  | nil => exact follows_valid .nil
  | @cons entry other rest others hentry _ ih =>
      obtain ⟨key, value⟩ := entry
      obtain ⟨_, counterpart⟩ := other
      obtain ⟨rfl, hvalue⟩ := hentry
      have hkey : Follows Eq (readKey key) (readKey key) := follows_self fun _ => rfl
      refine Follows.apply (Follows.apply (Follows.map ?_ hkey) ((hread hvalue).within _ _)) ih
      rintro name _ rfl a c hcontent _ _ hmore
      exact .cons ⟨rfl, hcontent⟩ hmore

theorem follows_readTable {S : α → α → Prop} (hread : (R ⇒ Follows S) read read)
    (hrefl : ∀ a, S a a) :
    (EntriesGrow R ⇒ Follows (List.Forall₂ (Keyed S))) (readTable read) (readTable read) := by
  intro _ _ htable
  cases htable with
  | same value =>
      exact follows_self fun _ => List.forall₂_same.mpr fun entry _ => ⟨rfl, hrefl entry.2⟩
  | mapping hentries =>
      refine (follows_readEntries hread hentries).map ?_
      intro _ _ hnamed
      exact assigned_keyed _ hnamed

end Raw

/-! ## Models -/

/-- The fields that a model declares, each with the relation in which its value may grow. -/
abbrev Schema := List (String × (Raw → Raw → Prop))

namespace Schema

open Raw Checked

variable {α : Type} {schema : Schema} {name : String} {R : Raw → Raw → Prop}
  {S : α → α → Prop} {fields more : List (Scalar × Raw)}

/-- A key is the name of a field that is declared. -/
def Declares (schema : Schema) : Scalar → Prop
  | .text name => (schema.lookup name).isSome
  | _ => False

/-- The value under a key grows as is declared, and not at all if nothing is. -/
def ValueGrows (schema : Schema) : Scalar → Raw → Raw → Prop
  | .text name => (schema.lookup name).getD Eq
  | _ => Eq

/-- Fields grow: their values do as declared, and others that are not declared are put anywhere
among them. -/
inductive FieldsGrow (schema : Schema) : List (Scalar × Raw) → List (Scalar × Raw) → Prop
  | nil : FieldsGrow schema [] []
  | keep {key : Scalar} {value grown : Raw} {fields more : List (Scalar × Raw)}
      (hvalue : schema.ValueGrows key value grown) (hrest : FieldsGrow schema fields more) :
      FieldsGrow schema ((key, value) :: fields) ((key, grown) :: more)
  | add {key : Scalar} {value : Raw} {fields more : List (Scalar × Raw)}
      (hnew : ¬ schema.Declares key) (hrest : FieldsGrow schema fields more) :
      FieldsGrow schema fields ((key, value) :: more)

/-- A value that is read as a model grows in its fields. -/
inductive Grows (schema : Schema) : Raw → Raw → Prop
  | same (value : Raw) : Grows schema value value
  | mapping {fields more : List (Scalar × Raw)} (hfields : schema.FieldsGrow fields more) :
      Grows schema (.mapping fields) (.mapping more)

theorem declares_of_lookup (hname : schema.lookup name = some R) :
    schema.Declares (.text name) := by
  simp [Declares, hname]

theorem valueGrows_of_lookup (hname : schema.lookup name = some R) :
    schema.ValueGrows (.text name) = R := by
  simp [ValueGrows, hname]

namespace FieldsGrow

/-- A declared field is there if it was before, and its value has grown as declared. -/
theorem field?_cases (h : schema.FieldsGrow fields more) (hname : schema.lookup name = some R) :
    (field? name fields = none ∧ field? name more = none) ∨
      ∃ value grown, field? name fields = some value ∧ field? name more = some grown ∧
        R value grown := by
  induction h with
  | nil => exact .inl ⟨rfl, rfl⟩
  | @keep key value grown fields more hvalue _ ih =>
      by_cases hkey : key = .text name
      · rw [hkey, valueGrows_of_lookup hname] at hvalue
        exact .inr ⟨value, grown, by simp [field?, hkey], by simp [field?, hkey], hvalue⟩
      · simp only [field?, hkey, if_false]
        exact ih
  | @add key value fields more hnew _ ih =>
      have hkey : key ≠ .text name := fun hkey => hnew (hkey ▸ declares_of_lookup hname)
      simp only [field?, hkey, if_false]
      exact ih

theorem field?_eq (h : schema.FieldsGrow fields more) (hname : schema.lookup name = some Eq) :
    field? name fields = field? name more := by
  rcases h.field?_cases hname with ⟨hbefore, hafter⟩ | ⟨value, _, hbefore, hafter, rfl⟩
  · rw [hbefore, hafter]
  · rw [hbefore, hafter]

/-- Of the fields with a key whose value may not grow there are no others. -/
theorem filter_eq (h : schema.FieldsGrow fields more) (hname : schema.lookup name = some Eq) :
    (fields.filter fun entry => entry.1 == .text name) =
      more.filter fun entry => entry.1 == .text name := by
  induction h with
  | nil => rfl
  | @keep key value grown fields more hvalue _ ih =>
      by_cases hkey : key = .text name
      · rw [hkey, valueGrows_of_lookup hname] at hvalue
        simp [hkey, hvalue, ih]
      · simp [hkey, ih]
  | @add key value fields more hnew _ ih =>
      have hkey : key ≠ .text name := fun hkey => hnew (hkey ▸ declares_of_lookup hname)
      simp [hkey, ih]

theorem without (h : schema.FieldsGrow fields more) (name : String) :
    schema.FieldsGrow (Raw.without name fields) (Raw.without name more) := by
  unfold Raw.without
  induction h with
  | nil => exact .nil
  | @keep key value grown fields more hvalue _ ih =>
      by_cases hkey : key = .text name
      · simpa [hkey] using ih
      · simpa [hkey] using .keep hvalue ih
  | @add key value fields more hnew _ ih =>
      by_cases hkey : key = .text name
      · simpa [hkey] using ih
      · simpa [hkey] using .add hnew ih

theorem insert (h : schema.FieldsGrow fields more) (hname : schema.lookup name = some R)
    {value : Raw} (hvalue : R value value) : schema.FieldsGrow
      (Raw.insert (.text name) value fields) (Raw.insert (.text name) value more) := by
  have hsame : schema.ValueGrows (.text name) value value := by
    rwa [valueGrows_of_lookup hname]
  unfold Raw.insert
  induction h with
  | nil => exact .keep hsame .nil
  | @keep key before grown fields more hgrown hrest ih =>
      by_cases hkey : key.sameKey (.text name) = true
      · simp only [insertBy, hkey, if_true]
        exact .keep (eq_text_of_sameKey hkey ▸ hsame) hrest
      · simp only [insertBy, hkey]
        exact .keep hgrown ih
  | @add key added fields more hnew _ ih =>
      -- The key of the new field is another one, since it is not declared.
      have hkey : ¬ key.sameKey (.text name) = true :=
        fun hkey => hnew (eq_text_of_sameKey hkey ▸ declares_of_lookup hname)
      simp only [insertBy, hkey]
      exact .add hnew ih

theorem append_field (h : schema.FieldsGrow fields more) {key : Scalar} {value : Raw}
    (hvalue : schema.ValueGrows key value value) :
    schema.FieldsGrow (fields ++ [(key, value)]) (more ++ [(key, value)]) := by
  induction h with
  | nil => exact .keep hvalue .nil
  | keep hgrown _ ih => exact .keep hgrown ih
  | add hnew _ ih => exact .add hnew ih

variable {γ : Type} {T : α → γ → Prop} {read : Raw → Checked α} {again : Raw → Checked γ}

theorem follows_required (h : schema.FieldsGrow fields more) (name : String)
    (hname : schema.lookup name = some R) (hread : (R ⇒ Follows T) read again) :
    Follows T (requiredField name read fields) (requiredField name again more) := by
  unfold requiredField
  rcases h.field?_cases hname with ⟨hbefore, -⟩ | ⟨value, grown, hbefore, hafter, hvalue⟩
  · rw [hbefore]
    intro _ hvalid
    cases hvalid
  · rw [hbefore, hafter]
    exact (hread hvalue).within _ _

theorem follows_optional {absent : α} {missing : γ} (h : schema.FieldsGrow fields more)
    (name : String) (hname : schema.lookup name = some R) (hread : (R ⇒ Follows T) read again)
    (habsent : T absent missing) :
    Follows T (optionalField name absent read fields)
      (optionalField name missing again more) := by
  unfold optionalField
  rcases h.field?_cases hname with ⟨hbefore, hafter⟩ | ⟨value, grown, hbefore, hafter, hvalue⟩
  · rw [hbefore, hafter]
    exact follows_valid habsent
  · rw [hbefore, hafter]
    exact (hread hvalue).within _ _

end FieldsGrow

theorem follows_readModel {read : List (Scalar × Raw) → Checked α} (model : String)
    (hfields : (schema.FieldsGrow ⇒ Follows S) read read) (hrefl : ∀ a, S a a) :
    (schema.Grows ⇒ Follows S) (readModel model read) (readModel model read) := by
  intro _ _ hvalue
  cases hvalue with
  | same value => exact follows_self hrefl
  | mapping hmore => exact hfields hmore

/-- Null does not grow, so a model that may be null is null as before or has grown. -/
theorem follows_readNullable {read : Raw → Checked α}
    (hread : (schema.Grows ⇒ Follows Eq) read read) :
    (schema.Grows ⇒ Follows Eq) (readNullable read) (readNullable read) := by
  intro _ _ hvalue
  cases hvalue with
  | same value => exact follows_self fun _ => rfl
  | mapping hmore =>
      refine (hread (.mapping hmore)).map ?_
      rintro a _ rfl
      rfl

end Schema

end ServiceManual
