import Mathlib.Data.List.Forall2
import Mathlib.Data.List.Induction
import Mathlib.Data.List.Nodup
import ServiceManual.Raw.Reading

/-!
# What readers take and where they break off

A reader goes through the parts of a value.  It gives a model if every part gives its part of the
model, in the same order (`readList_eq_valid_iff`, `readEntries_eq_valid_iff`), and it breaks off
if one of the parts breaks off (`isBroken_readList`, `isBroken_readEntries`).  The readers of
scalars never break off.

A table is in addition a sequence of assignments.  It has one entry for each name
(`nodup_names_of_readTable`), which is the last one that was given for it
(`mem_iff_of_readTable`), and a mapping that already has one for each is read entry by entry
(`readTable_eq_valid_iff`).
-/

namespace ServiceManual

/-! ## Outcomes -/

namespace Checked

variable {α β : Type} {x : Checked α}

@[simp] theorem map_eq_valid_iff {f : α → β} {b : β} :
    x.map f = .valid b ↔ ∃ a, x = .valid a ∧ f a = b := by
  cases x <;> simp [map]

@[simp] theorem map_map {γ : Type} (f : α → β) (g : β → γ) :
    (x.map f).map g = x.map fun a => g (f a) := by
  cases x <;> rfl

@[simp] theorem within_valid (step : Step) (a : α) : (valid a).within step = .valid a := rfl

@[simp] theorem apply_valid_left (f : α → β) : apply (.valid f) x = x.map f := by
  cases x <;> rfl

@[simp] theorem apply_valid_right (f : Checked (α → β)) (a : α) :
    apply f (.valid a) = f.map fun g => g a := by
  cases f <;> rfl

/-- Reading broke off. -/
def IsBroken (x : Checked α) : Prop :=
  ∃ fault, x = .broken fault

@[simp] theorem isBroken_broken (fault : Fault) : (broken fault : Checked α).IsBroken :=
  ⟨fault, rfl⟩

@[simp] theorem not_isBroken_valid (a : α) : ¬ (valid a).IsBroken := by
  rintro ⟨fault, h⟩
  cases h

@[simp] theorem not_isBroken_invalid (issues : List Issue) :
    ¬ (invalid issues : Checked α).IsBroken := by
  rintro ⟨fault, h⟩
  cases h

@[simp] theorem not_isBroken_refuse (problem : Problem) :
    ¬ (refuse problem : Checked α).IsBroken :=
  not_isBroken_invalid _

@[simp] theorem isBroken_map {f : α → β} : (x.map f).IsBroken ↔ x.IsBroken := by
  cases x <;> simp [map]

@[simp] theorem isBroken_within {step : Step} : (x.within step).IsBroken ↔ x.IsBroken := by
  cases x <;> simp [within]

@[simp] theorem isBroken_apply {f : Checked (α → β)} :
    (apply f x).IsBroken ↔ f.IsBroken ∨ x.IsBroken := by
  cases f <;> cases x <;> simp [apply, both]

@[simp] theorem isBroken_andThen {next : α → Checked β} :
    (x.andThen next).IsBroken ↔ x.IsBroken ∨ ∃ a, x = .valid a ∧ (next a).IsBroken := by
  cases x <;> simp [andThen]

end Checked

namespace Raw

open Checked

variable {α κ : Type} {read : Raw → Checked α} {value part : Raw} {name : String}
  {fields : List (Scalar × Raw)}

/-! ## Scalars -/

theorem not_isBroken_decoded (undecodable : Problem) (bytes : List UInt8) :
    ¬ (decoded undecodable bytes).IsBroken := by
  unfold decoded
  split <;> simp

theorem not_isBroken_readText (value : Raw) : ¬ (readText value).IsBroken := by
  unfold readText
  split
  · simp
  · exact not_isBroken_decoded _ _
  · simp

theorem not_isBroken_readSpelled {undecodable : Problem} {spelled : String → Checked α}
    (hspelled : ∀ text, ¬ (spelled text).IsBroken) (hread : ∀ value, ¬ (read value).IsBroken)
    (value : Raw) : ¬ (readSpelled undecodable spelled read value).IsBroken := by
  unfold readSpelled spelling?
  rcases value with scalar | _ | _ | _ | _
  · rcases scalar with _ | _ | _ | _ | text | bytes | _ | _
    all_goals try exact hread _
    · simp only [isBroken_andThen, not_or, not_exists, not_and]
      refine ⟨?_, fun text _ => hspelled text⟩
      split <;> simp
    · simp only [isBroken_andThen, not_or, not_exists, not_and]
      exact ⟨not_isBroken_decoded _ _, fun text _ => hspelled text⟩
  all_goals exact hread _

theorem not_isBroken_readFlag (value : Raw) : ¬ (readFlag value).IsBroken := by
  refine not_isBroken_readSpelled (fun text => ?_) (fun value => ?_) value
  · unfold flagOfText
    split <;> simp
  · unfold flagOfNumber
    repeat' split
    all_goals simp

theorem not_isBroken_readInteger (value : Raw) : ¬ (readInteger value).IsBroken := by
  refine not_isBroken_readSpelled (fun text => ?_) (fun value => ?_) value
  · unfold integerOfText
    split <;> simp
  · unfold integerOfNumber integerOfReal
    repeat' split
    all_goals simp

theorem not_isBroken_readReal (value : Raw) : ¬ (readReal value).IsBroken := by
  refine not_isBroken_readSpelled (fun text => ?_) (fun value => ?_) value
  · unfold realOfText
    split <;> simp
  · unfold realOfNumber
    split <;> simp

theorem not_isBroken_readNumber (value : Raw) : ¬ (readNumber value).IsBroken := by
  have hinteger := not_isBroken_readInteger value
  have hreal := not_isBroken_readReal value
  unfold readNumber
  split
  · simp
  · simp
  · generalize readInteger value = asInteger at hinteger
    generalize readReal value = asReal at hreal
    cases asInteger <;> cases asReal <;> simp_all [both, within, map]

theorem not_isBroken_readLiteral (value : Raw) : ¬ (readLiteral value).IsBroken := by
  unfold readLiteral refuseLiteral
  repeat' split
  all_goals simp

/-! ## Fields -/

/-- A value is a mapping whose field of this name is this part. -/
def FieldIs (value : Raw) (name : String) (part : Raw) : Prop :=
  ∃ fields, value = .mapping fields ∧ field? name fields = some part

@[simp] theorem fieldIs_mapping :
    (mapping fields).FieldIs name part ↔ field? name fields = some part := by
  simp [FieldIs]

@[simp] theorem field?_cons_self (value : Raw) :
    field? name ((.text name, value) :: fields) = some value := by
  simp [field?]

theorem readModel_eq_valid_iff {model : String} {fromFields : List (Scalar × Raw) → Checked α}
    {a : α} : readModel model fromFields value = .valid a ↔
      ∃ fields, value = .mapping fields ∧ fromFields fields = .valid a := by
  cases value <;> simp [readModel, refuse]

theorem isBroken_readModel {model : String} {fromFields : List (Scalar × Raw) → Checked α} :
    (readModel model fromFields value).IsBroken ↔
      ∃ fields, value = .mapping fields ∧ (fromFields fields).IsBroken := by
  cases value <;> simp [readModel]

@[simp] theorem requiredField_eq_valid_iff {a : α} : requiredField name read fields = .valid a ↔
    ∃ part, field? name fields = some part ∧ read part = .valid a := by
  unfold requiredField
  cases field? name fields <;> simp [within_eq_valid_iff, refuse]

@[simp] theorem optionalField_eq_valid_iff {absent a : α} :
    optionalField name absent read fields = .valid a ↔
      (field? name fields = none ∧ absent = a) ∨
        ∃ part, field? name fields = some part ∧ read part = .valid a := by
  unfold optionalField
  cases field? name fields <;> simp [within_eq_valid_iff]

@[simp] theorem isBroken_requiredField : (requiredField name read fields).IsBroken ↔
    ∃ part, field? name fields = some part ∧ (read part).IsBroken := by
  unfold requiredField
  cases field? name fields <;> simp

@[simp] theorem isBroken_optionalField {absent : α} :
    (optionalField name absent read fields).IsBroken ↔
      ∃ part, field? name fields = some part ∧ (read part).IsBroken := by
  unfold optionalField
  cases field? name fields <;> simp

theorem isBroken_readNullable :
    (readNullable read value).IsBroken ↔ value ≠ .null ∧ (read value).IsBroken := by
  unfold readNullable
  split
  · simp
  · rename_i hnull
    have hother : value ≠ .null := hnull
    simp [hother]

/-! ## Lists -/

/-- The items that are gone through when a value is read as a list. -/
def items : Raw → List Raw
  | .list items => items
  | .set members => members.map .scalar
  | _ => []

/-- Is a value read as a list? -/
def isListed : Raw → Bool
  | .list _ => true
  | .set _ => true
  | _ => false

theorem readItems_eq_valid_iff {position : Nat} {items : List Raw} {models : List α} :
    readItems read position items = .valid models ↔
      List.Forall₂ (fun item model => read item = .valid model) items models := by
  induction items generalizing position models with
  | nil => cases models <;> simp [readItems]
  | cons item rest ih =>
      cases models with
      | nil => simp [readItems, apply_eq_valid_iff]
      | cons model more => simp [readItems, apply_eq_valid_iff, within_eq_valid_iff, ih]

theorem readList_eq_valid_iff {models : List α} : readList read value = .valid models ↔
    value.isListed ∧
      List.Forall₂ (fun item model => read item = .valid model) value.items models := by
  cases value <;> simp [readList, isListed, items, readItems_eq_valid_iff, refuse]

theorem exists_mem_of_forall₂ {β : Type} {first : List α} {second : List β} {b : β}
    {R : α → β → Prop} (h : List.Forall₂ R first second) (hb : b ∈ second) :
    ∃ a ∈ first, R a b := by
  induction h with
  | nil => simp at hb
  | cons hhead _ ih =>
      rcases List.mem_cons.mp hb with rfl | htail
      · exact ⟨_, List.mem_cons_self, hhead⟩
      · obtain ⟨a, ha, hrelated⟩ := ih htail
        exact ⟨a, List.mem_cons_of_mem _ ha, hrelated⟩

/-- A list that is related to one with a certain member has a member at the same place. -/
theorem exists_split_of_forall₂ {β : Type} {R : α → β → Prop} {first : List α}
    {before after : List β} {b : β} (h : List.Forall₂ R first (before ++ b :: after)) :
    ∃ earlier a later, first = earlier ++ a :: later ∧ R a b ∧ List.Forall₂ R later after := by
  induction before generalizing first with
  | nil =>
      obtain ⟨a, later, hhead, hlater, rfl⟩ := List.forall₂_cons_right_iff.mp h
      exact ⟨[], a, later, rfl, hhead, hlater⟩
  | cons head rest ih =>
      obtain ⟨a, more, -, hmore, rfl⟩ := List.forall₂_cons_right_iff.mp h
      obtain ⟨earlier, found, later, rfl, hfound⟩ := ih hmore
      exact ⟨a :: earlier, found, later, rfl, hfound⟩

theorem exists_item_of_readList {models : List α} {model : α}
    (h : readList read value = .valid models) (hmodel : model ∈ models) :
    ∃ item ∈ value.items, read item = .valid model :=
  exists_mem_of_forall₂ (R := fun item model => read item = .valid model)
    (readList_eq_valid_iff.mp h).2 hmodel

/-- A list of models that is written out reads back if every model does. -/
theorem readList_map_eq_valid_iff {write : α → Raw} {models : List α} :
    readList read (.list (models.map write)) = .valid models ↔
      ∀ model ∈ models, read (write model) = .valid model := by
  rw [readList_eq_valid_iff, items, List.forall₂_map_left_iff, List.forall₂_same]
  simp [isListed]

theorem isBroken_readItems {position : Nat} {items : List Raw} :
    (readItems read position items).IsBroken ↔ ∃ item ∈ items, (read item).IsBroken := by
  induction items generalizing position with
  | nil => simp [readItems]
  | cons item rest ih => simp [readItems, ih]

theorem isBroken_readList :
    (readList read value).IsBroken ↔ ∃ item ∈ value.items, (read item).IsBroken := by
  cases value <;> simp [readList, items, isBroken_readItems]

theorem not_isBroken_readParagraphs (value : Raw) : ¬ (readParagraphs value).IsBroken := by
  unfold readParagraphs
  split
  · simp
  · simp
  · rw [isBroken_readList]
    rintro ⟨item, -, hitem⟩
    exact not_isBroken_readText item hitem

/-! ## Assignments -/

/-- Only a text is one key with a text. -/
theorem eq_text_of_sameKey {key : Scalar} {name : String} (h : key.sameKey (.text name) = true) :
    key = .text name := by
  cases key with
  | text other => exact congrArg Scalar.text (by simpa [Scalar.sameKey_text] using h)
  | real value =>
      simp only [Scalar.sameKey, Scalar.asKey, beq_iff_eq] at h
      split at h <;> cases h
  | null | flag | integer | bytes | date | moment => simp [Scalar.sameKey, Scalar.asKey] at h

section Assignments

variable {same : κ → κ → Bool} {key : κ} {a : α} {entry : κ × α} {entries : List (κ × α)}

theorem assigned_concat (entries : List (κ × α)) (entry : κ × α) :
    assigned same (entries ++ [entry]) = insertBy same entry.1 entry.2 (assigned same entries) := by
  simp [assigned]

theorem insertBy_of_new (hnew : ∀ entry ∈ entries, same entry.1 key = false) :
    insertBy same key a entries = entries ++ [(key, a)] := by
  induction entries with
  | nil => rfl
  | cons head rest ih =>
      have hhead := hnew head List.mem_cons_self
      have hrest := ih fun entry h => hnew entry (List.mem_cons_of_mem _ h)
      simp [insertBy, hhead, hrest]

theorem map_fst_insertBy : (insertBy same key a entries).map Prod.fst =
    if ∀ entry ∈ entries, same entry.1 key = false then entries.map Prod.fst ++ [key]
    else entries.map Prod.fst := by
  induction entries with
  | nil => simp [insertBy]
  | cons head rest ih =>
      cases hhead : same head.1 key with
      | true => simp [insertBy, hhead]
      | false =>
          simp only [insertBy, hhead, Bool.false_eq_true, if_false, List.map_cons, ih,
            List.forall_mem_cons, true_and]
          split <;> rfl

theorem mem_values_of_insertBy {b : α} (h : b ∈ (insertBy same key a entries).map Prod.snd) :
    b = a ∨ b ∈ entries.map Prod.snd := by
  induction entries with
  | nil => exact .inl (List.mem_singleton.mp h)
  | cons head rest ih =>
      simp only [insertBy] at h
      split at h
      · rcases List.mem_cons.mp h with rfl | htail
        · exact .inl rfl
        · exact .inr (List.mem_cons_of_mem _ htail)
      · rcases List.mem_cons.mp h with rfl | htail
        · exact .inr List.mem_cons_self
        · exact (ih htail).imp_right (List.mem_cons_of_mem _)

theorem mem_values_of_assigned {b : α} (h : b ∈ (assigned same entries).map Prod.snd) :
    b ∈ entries.map Prod.snd := by
  induction entries using List.reverseRecOn with
  | nil => exact h
  | append_singleton before last ih =>
      rw [assigned_concat] at h
      rw [List.map_append, List.mem_append]
      rcases mem_values_of_insertBy h with rfl | hbefore
      · exact .inr List.mem_cons_self
      · exact .inl (ih hbefore)

/-- Assignments to keys that are all different are left as they are. -/
theorem assigned_eq_self
    (hkeys : entries.Pairwise fun first second => same first.1 second.1 = false) :
    assigned same entries = entries := by
  induction entries using List.reverseRecOn with
  | nil => rfl
  | append_singleton before last ih =>
      obtain ⟨hbefore, -, hlast⟩ := List.pairwise_append.mp hkeys
      rw [assigned_concat, ih hbefore]
      exact insertBy_of_new fun entry hentry => hlast entry hentry last List.mem_cons_self

theorem mem_insertBy (h : entry ∈ insertBy same key a entries) :
    entry ∈ entries ∨ entry.2 = a ∧ (entry.1 = key ∨ same entry.1 key = true) := by
  induction entries with
  | nil =>
      obtain rfl := List.mem_singleton.mp h
      exact .inr ⟨rfl, .inl rfl⟩
  | cons head rest ih =>
      simp only [insertBy] at h
      split at h
      · rename_i hsame
        rcases List.mem_cons.mp h with rfl | htail
        · exact .inr ⟨rfl, .inr hsame⟩
        · exact .inl (List.mem_cons_of_mem _ htail)
      · rcases List.mem_cons.mp h with rfl | htail
        · exact .inl List.mem_cons_self
        · exact (ih htail).imp_left (List.mem_cons_of_mem _)

/-- What assignments leave was assigned, to the key under which it is left or to one that counts as
the same. -/
theorem exists_assignment_of_mem_assigned (h : entry ∈ assigned same entries) :
    ∃ given ∈ entries, given.2 = entry.2 ∧
      (entry.1 = given.1 ∨ same entry.1 given.1 = true) := by
  induction entries using List.reverseRecOn with
  | nil => cases h
  | append_singleton before last ih =>
      rw [assigned_concat] at h
      rcases mem_insertBy h with hbefore | ⟨hvalue, hkey⟩
      · obtain ⟨given, hgiven, hsame⟩ := ih hbefore
        exact ⟨given, List.mem_append_left _ hgiven, hsame⟩
      · exact ⟨last, by simp, hvalue.symm, hkey⟩

end Assignments

/-! ## Tables -/

variable {entries : List (Scalar × Raw)} {table : List (String × α)}

theorem nodup_names_assigned (table : List (String × α)) :
    ((assigned (· == ·) table).map Prod.fst).Nodup := by
  induction table using List.reverseRecOn with
  | nil => exact List.nodup_nil
  | append_singleton before last ih =>
      rw [assigned_concat, map_fst_insertBy]
      split
      · rename_i hnew
        refine List.nodup_append.mpr ⟨ih, List.nodup_singleton _, fun name hname other hother => ?_⟩
        obtain ⟨entry, hentry, rfl⟩ := List.mem_map.mp hname
        obtain rfl := List.mem_singleton.mp hother
        simpa using hnew entry hentry
      · exact ih

/-- Where names are different, setting one leaves the entries under the others. -/
theorem mem_insertBy_iff {key : String} {a b : α} (hnames : (table.map Prod.fst).Nodup) :
    (name, b) ∈ insertBy (· == ·) key a table ↔
      name = key ∧ b = a ∨ name ≠ key ∧ (name, b) ∈ table := by
  induction table with
  | nil => simp [insertBy]
  | cons head rest ih =>
      obtain ⟨hhead, hrest⟩ := List.nodup_cons.mp hnames
      by_cases hkey : head.1 = key
      · -- The entries of the rest are under other names than the one that is set.
        have hother : (name, b) ∈ rest → name ≠ key := fun hmem heq =>
          hhead (hkey ▸ heq ▸ List.mem_map_of_mem hmem)
        simp only [insertBy, beq_iff_eq, hkey, if_true, List.mem_cons, Prod.mk.injEq]
        grind
      · simp only [insertBy, beq_iff_eq, hkey, if_false, List.mem_cons, ih hrest]
        grind

/-- **The last assignment stays.**  Under a name there is what was last assigned to it. -/
theorem mem_assigned_iff {a : α} : (name, a) ∈ assigned (· == ·) table ↔
    ∃ before after, table = before ++ (name, a) :: after ∧ name ∉ after.map Prod.fst := by
  induction table using List.reverseRecOn with
  | nil => simp [assigned]
  | append_singleton earlier last ih =>
      rw [assigned_concat, mem_insertBy_iff (nodup_names_assigned earlier), ih]
      constructor
      · rintro (⟨rfl, rfl⟩ | ⟨hname, before, after, rfl, hafter⟩)
        · exact ⟨earlier, [], rfl, by simp⟩
        · exact ⟨before, after ++ [last], by simp, by simpa [hname] using hafter⟩
      · rintro ⟨before, after, htable, hafter⟩
        -- It is the last assignment of all, or the last under its name among the earlier ones.
        rcases List.eq_nil_or_concat' after with rfl | ⟨middle, final, rfl⟩
        · obtain ⟨rfl, hlast⟩ := List.append_inj' htable rfl
          obtain rfl := List.singleton_inj.mp hlast
          exact .inl ⟨rfl, rfl⟩
        · rw [← List.cons_append, ← List.append_assoc] at htable
          obtain ⟨rfl, hlast⟩ := List.append_inj' htable rfl
          obtain rfl := List.singleton_inj.mp hlast
          rw [List.map_append, List.mem_append, not_or] at hafter
          exact .inr ⟨by simpa using hafter.2, before, middle, rfl, hafter.1⟩

theorem readEntries_eq_valid_iff : readEntries read entries = .valid table ↔
    List.Forall₂ (fun entry named => readText (.scalar entry.1) = .valid named.1 ∧
      read entry.2 = .valid named.2) entries table := by
  induction entries generalizing table with
  | nil => cases table <;> simp [readEntries]
  | cons entry rest ih =>
      cases table with
      | nil => simp [readEntries, apply_eq_valid_iff]
      | cons named more =>
          obtain ⟨name, model⟩ := named
          simp only [readEntries, readKey, map_eq, seq_eq, apply_eq_valid_iff, map_eq_valid_iff,
            within_eq_valid_iff, List.forall₂_cons, ih]
          constructor
          · rintro ⟨g, _, ⟨f, _, ⟨_, hname, rfl⟩, hmodel, rfl⟩, hrest, hlist⟩
            obtain ⟨hnamed, rfl⟩ := List.cons.inj hlist
            obtain ⟨rfl, rfl⟩ := Prod.mk.inj hnamed
            exact ⟨⟨hname, hmodel⟩, hrest⟩
          · rintro ⟨⟨hname, hmodel⟩, hrest⟩
            exact ⟨_, _, ⟨_, _, ⟨_, hname, rfl⟩, hmodel, rfl⟩, hrest, rfl⟩

theorem readTable_eq_valid_iff : readTable read value = .valid table ↔
    ∃ entries named, value = .mapping entries ∧ readEntries read entries = .valid named ∧
      assigned (· == ·) named = table := by
  cases value <;> simp [readTable, refuse]

theorem nodup_names_of_readTable (h : readTable read value = .valid table) :
    (table.map Prod.fst).Nodup := by
  obtain ⟨entries, named, -, -, rfl⟩ := readTable_eq_valid_iff.mp h
  exact nodup_names_assigned named

theorem exists_entry_of_readTable {named : String × α} (h : readTable read value = .valid table)
    (hnamed : named ∈ table) :
    ∃ entries entry, value = .mapping entries ∧ entry ∈ entries ∧
      read entry.2 = .valid named.2 := by
  obtain ⟨entries, all, rfl, hread, rfl⟩ := readTable_eq_valid_iff.mp h
  obtain ⟨other, hother, hmodel⟩ :=
    List.mem_map.mp (mem_values_of_assigned (List.mem_map_of_mem hnamed))
  obtain ⟨entry, hentry, -, hvalue⟩ :=
    exists_mem_of_forall₂ (readEntries_eq_valid_iff.mp hread) hother
  exact ⟨entries, entry, rfl, hentry, hmodel ▸ hvalue⟩

/-- Under a name a table has what its last entry under a key that spells the name is read as. -/
theorem mem_iff_of_readTable {name : String} {a : α}
    (h : readTable read (.mapping entries) = .valid table) : (name, a) ∈ table ↔
      ∃ before entry after, entries = before ++ entry :: after ∧
        readText (.scalar entry.1) = .valid name ∧ read entry.2 = .valid a ∧
        ∀ later ∈ after, readText (.scalar later.1) ≠ .valid name := by
  obtain ⟨_, named, hentries, hread, rfl⟩ := readTable_eq_valid_iff.mp h
  obtain rfl := Raw.mapping.inj hentries
  rw [readEntries_eq_valid_iff] at hread
  rw [mem_assigned_iff]
  constructor
  · rintro ⟨before, after, rfl, hafter⟩
    obtain ⟨earlier, entry, later, rfl, ⟨hname, hvalue⟩, hlater⟩ := exists_split_of_forall₂ hread
    refine ⟨earlier, entry, later, rfl, hname, hvalue, fun other hother hspelled => hafter ?_⟩
    -- A later entry with that name would have been read under it.
    obtain ⟨found, hfound, hkey, -⟩ := exists_mem_of_forall₂ hlater.flip hother
    obtain rfl := Checked.valid.inj (hspelled.symm.trans hkey)
    exact List.mem_map_of_mem hfound
  · rintro ⟨before, entry, after, rfl, hname, hvalue, hafter⟩
    obtain ⟨earlier, found, later, rfl, ⟨hkey, hmodel⟩, hlater⟩ :=
      exists_split_of_forall₂ hread.flip
    obtain rfl : found = (name, a) :=
      Prod.ext (Checked.valid.inj (hkey.symm.trans hname))
        (Checked.valid.inj (hmodel.symm.trans hvalue))
    refine ⟨earlier, later, rfl, fun hmem => ?_⟩
    obtain ⟨other, hother, rfl⟩ := List.mem_map.mp hmem
    obtain ⟨given, hgiven, hspelled, -⟩ := exists_mem_of_forall₂ hlater.flip hother
    exact hafter given hgiven hspelled

theorem assigned_eq_self_of_nodup (hnames : (table.map Prod.fst).Nodup) :
    assigned (· == ·) table = table := by
  rw [List.nodup_iff_pairwise_ne, List.pairwise_map] at hnames
  exact assigned_eq_self (hnames.imp fun hdifferent => by simpa using hdifferent)

/-- A table that is written out reads back if every model in it does. -/
theorem readTable_map_eq_valid_iff {write : α → Raw} (hnames : (table.map Prod.fst).Nodup) :
    readTable read (.mapping (table.map fun named => (.text named.1, write named.2))) =
      .valid table ↔ ∀ named ∈ table, read (write named.2) = .valid named.2 := by
  rw [readTable, map_eq, map_eq_valid_iff]
  constructor
  · rintro ⟨other, hother, htable⟩
    rw [readEntries_eq_valid_iff, List.forall₂_map_left_iff] at hother
    -- The names are read as they are, so they are all different and nothing is assigned twice.
    have hkeys : table.map Prod.fst = other.map Prod.fst := by
      rw [← List.forall₂_eq_eq_eq, List.forall₂_map_left_iff, List.forall₂_map_right_iff]
      exact hother.imp fun _ _ hentry => Checked.valid.inj hentry.1
    rw [assigned_eq_self_of_nodup (hkeys ▸ hnames)] at htable
    rw [htable, List.forall₂_same] at hother
    exact fun named hnamed => (hother named hnamed).2
  · intro hread
    refine ⟨table, ?_, assigned_eq_self_of_nodup hnames⟩
    rw [readEntries_eq_valid_iff, List.forall₂_map_left_iff, List.forall₂_same]
    exact fun named hnamed => ⟨rfl, hread named hnamed⟩

theorem isBroken_readEntries :
    (readEntries read entries).IsBroken ↔ ∃ entry ∈ entries, (read entry.2).IsBroken := by
  induction entries with
  | nil => simp [readEntries]
  | cons entry rest ih => simp [readEntries, readKey, not_isBroken_readText, ih]

theorem isBroken_readTable : (readTable read value).IsBroken ↔
    ∃ entries, value = .mapping entries ∧ ∃ entry ∈ entries, (read entry.2).IsBroken := by
  cases value <;> simp [readTable, isBroken_readEntries]

end Raw

end ServiceManual
