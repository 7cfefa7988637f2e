import Mathlib.Data.List.Sort
import Mathlib.Data.String.Basic
import ServiceManual.Document

/-!
# Tables in the order of their names

What an interface reaches is kept in tables in the order in which it was met, and is shown in the
order of names.  Two properties of a table say all that is needed of it, relative to a way
`lookup` to find entities by name and a set `keys` of names:

* `Table.Holds`: the entries are what `lookup` finds under the names in `keys`, each name once;
* `Table.Lists`: the same, and the names are in strictly increasing order.

A sorted table lists what the table holds (`Table.Holds.lists_sorted`), and there is only one table
that lists something (`Table.Lists.eq_of_iff`).  So two walks that go through a service in different
orders but hold the same in the end show the same lists.

The order of texts is that of their code points.
-/

namespace ServiceManual

/-! ## Sorting by a text -/

section SortByText

variable {α β : Type} {text : α → String} {items others : List α}

theorem sortByText_perm (text : α → String) (items : List α) :
    (sortByText text items).Perm items :=
  List.mergeSort_perm _ _

theorem pairwise_sortByText (text : α → String) (items : List α) :
    (sortByText text items).Pairwise fun a b => text a ≤ text b := by
  refine (List.pairwise_mergeSort ?_ ?_ items).imp fun hle => of_decide_eq_true hle
  · intro a b c hab hbc
    simp only [decide_eq_true_eq] at hab hbc ⊢
    exact hab.trans hbc
  · intro a b
    simp only [Bool.or_eq_true, decide_eq_true_eq]
    exact le_total _ _

theorem pairwise_lt_sortByText (hnodup : (items.map text).Nodup) :
    (sortByText text items).Pairwise fun a b => text a < text b := by
  have hdistinct : (sortByText text items).Pairwise fun a b => text a ≠ text b :=
    List.pairwise_map.mp (((sortByText_perm text items).map text).nodup_iff.mpr hnodup)
  exact (pairwise_sortByText text items).imp₂ (fun a b hle hne => lt_of_le_of_ne hle hne) hdistinct

/-- Items with different texts have one order only. -/
theorem sortByText_eq_of_perm (hperm : items.Perm others) (hnodup : (items.map text).Nodup) :
    sortByText text items = sortByText text others := by
  have hothers : (others.map text).Nodup := (hperm.map text).nodup_iff.mp hnodup
  have hsorted : (sortByText text items).Perm (sortByText text others) :=
    (sortByText_perm text items).trans (hperm.trans (sortByText_perm text others).symm)
  refine hsorted.eq_of_pairwise ?_ (pairwise_lt_sortByText hnodup) (pairwise_lt_sortByText hothers)
  intro a b _ _ hab hba
  exact absurd hba (lt_asymm hab)

theorem filter_sortByText (text : α → String) (items : List α) (key : String) :
    (sortByText text items).filter (fun item => text item == key) =
      items.filter fun item => text item == key := by
  have hkept : (items.filter fun item => text item == key).Sublist (sortByText text items) := by
    refine List.sublist_mergeSort ?_ ?_ ?_ List.filter_sublist
    · intro a b c hab hbc
      simp only [decide_eq_true_eq] at hab hbc ⊢
      exact hab.trans hbc
    · intro a b
      simp only [Bool.or_eq_true, decide_eq_true_eq]
      exact le_total _ _
    · -- They are in order already, all having the same text.
      refine List.pairwise_of_forall_mem_list fun a ha b hb => ?_
      have hfirst : text a = key := by simpa using (List.mem_filter.mp ha).2
      have hsecond : text b = key := by simpa using (List.mem_filter.mp hb).2
      rw [decide_eq_true_eq, hfirst, hsecond]
  have hsublist := hkept.filter fun item => text item == key
  rw [List.filter_filter, show (fun item => text item == key && text item == key) =
    fun item => text item == key from funext fun _ => Bool.and_self _] at hsublist
  have hlength := ((sortByText_perm text items).filter fun item => text item == key).length_eq
  exact (hsublist.eq_of_length hlength.symm).symm

theorem map_sortByText {f : α → β} {other : β → String} (htext : ∀ a, other (f a) = text a) :
    (sortByText text items).map f = sortByText other (items.map f) := by
  apply List.map_mergeSort
  intro a _ b _
  simp only [htext]

end SortByText

/-! ## Tables -/

namespace Table

variable {α : Type} {table : Table α} {lookup found : String → Option α}
  {keys others : String → Prop}

/-- The entries are what is found under these names, each name once. -/
structure Holds (table : Table α) (lookup : String → Option α) (keys : String → Prop) : Prop where
  mem_iff : ∀ name entity, (name, entity) ∈ table ↔ keys name ∧ lookup name = some entity
  nodup : table.names.Nodup

/-- The entries are what is found under these names, in the strict order of the names. -/
structure Lists (table : Table α) (lookup : String → Option α) (keys : String → Prop) : Prop where
  mem_iff : ∀ name entity, (name, entity) ∈ table ↔ keys name ∧ lookup name = some entity
  ascending : table.Pairwise fun a b => a.1 < b.1

theorem mem_names_iff {name : String} : name ∈ table.names ↔ ∃ entity, (name, entity) ∈ table := by
  simp [names]

theorem mem_of_get? {name : String} {entity : α} (h : table.get? name = some entity) :
    (name, entity) ∈ table := by
  simp only [get?, Option.map_eq_some_iff] at h
  obtain ⟨entry, hfind, rfl⟩ := h
  have hname : entry.1 = name := by simpa using List.find?_some hfind
  exact hname ▸ List.mem_of_find?_eq_some hfind

theorem get?_eq_some_iff (hnodup : table.names.Nodup) {name : String} {entity : α} :
    table.get? name = some entity ↔ (name, entity) ∈ table := by
  refine ⟨mem_of_get?, fun hentry => ?_⟩
  have hsome : (table.find? fun entry => entry.1 == name).isSome :=
    List.find?_isSome.mpr ⟨_, hentry, by simp⟩
  obtain ⟨found, hfound⟩ := Option.isSome_iff_exists.mp hsome
  have hname : found.1 = name := by simpa using List.find?_some hfound
  obtain rfl : found = (name, entity) :=
    List.inj_on_of_nodup_map hnodup (List.mem_of_find?_eq_some hfound) hentry hname
  simp [get?, hfound]

theorem get?_eq_of_perm {other : Table α} (hperm : table.Perm other)
    (hnodup : table.names.Nodup) (name : String) : table.get? name = other.get? name := by
  have hother : other.names.Nodup := (hperm.map Prod.fst).nodup_iff.mp hnodup
  apply Option.ext
  intro entity
  rw [get?_eq_some_iff hnodup, get?_eq_some_iff hother, hperm.mem_iff]

theorem holds_nil (hkeys : ∀ name, ¬ keys name) : Holds ([] : Table α) lookup keys :=
  ⟨by simp [hkeys], by simp [names]⟩

/-- Of the names only those count under which there is something. -/
theorem Holds.congr (hholds : table.Holds lookup keys)
    (hkeys : ∀ name entity, lookup name = some entity → (keys name ↔ others name)) :
    table.Holds lookup others := by
  refine ⟨fun name entity => ?_, hholds.nodup⟩
  rw [hholds.mem_iff]
  exact and_congr_left (hkeys name entity)

/-- The names of a table are those of its names under which there is something. -/
theorem Holds.mem_names_iff (hholds : table.Holds lookup keys) {name : String} :
    name ∈ table.names ↔ keys name ∧ ∃ entity, lookup name = some entity := by
  rw [Table.mem_names_iff]
  constructor
  · rintro ⟨entity, hentry⟩
    obtain ⟨hkey, hfound⟩ := (hholds.mem_iff name entity).mp hentry
    exact ⟨hkey, entity, hfound⟩
  · rintro ⟨hkey, entity, hfound⟩
    exact ⟨entity, (hholds.mem_iff name entity).mpr ⟨hkey, hfound⟩⟩

theorem Holds.append_entry (hholds : table.Holds lookup keys) {name : String} {entity : α}
    (hfound : lookup name = some entity) (hnew : ¬ keys name) :
    Holds (table ++ [(name, entity)]) lookup fun other => other = name ∨ keys other := by
  constructor
  · intro other found
    simp only [List.mem_append, List.mem_singleton, Prod.mk.injEq, hholds.mem_iff]
    constructor
    · rintro (⟨hkey, hother⟩ | ⟨rfl, rfl⟩)
      · exact ⟨.inr hkey, hother⟩
      · exact ⟨.inl rfl, hfound⟩
    · rintro ⟨rfl | hkey, hother⟩
      · exact .inr ⟨rfl, Option.some.inj (hother.symm.trans hfound)⟩
      · exact .inl ⟨hkey, hother⟩
  · have hfresh : name ∉ table.names := fun hmem => hnew (hholds.mem_names_iff.mp hmem).1
    have hnames : Table.names (table ++ [(name, entity)]) = table.names ++ [name] := by
      simp [names]
    rw [hnames]
    exact List.nodup_append.mpr ⟨hholds.nodup, by simp, by
      intro a ha b hb hab
      exact hfresh (List.mem_singleton.mp hb ▸ hab ▸ ha)⟩

theorem Holds.skip (hholds : table.Holds lookup keys) {name : String} (hnone : lookup name = none) :
    table.Holds lookup fun other => other = name ∨ keys other := by
  refine ⟨fun other entity => ?_, hholds.nodup⟩
  rw [hholds.mem_iff]
  constructor
  · rintro ⟨hkey, hfound⟩
    exact ⟨.inr hkey, hfound⟩
  · rintro ⟨rfl | hkey, hfound⟩
    · simp [hnone] at hfound
    · exact ⟨hkey, hfound⟩

/-- Two tables can be put together if the second gives up the names of the first. -/
theorem Holds.append_rest {rest : Table α} (hholds : table.Holds lookup keys)
    (hrest : rest.Holds lookup others) :
    Holds (table ++ rest.filter fun entry => !table.names.contains entry.1) lookup
      fun name => keys name ∨ others name := by
  have hkept : ∀ name entity, (name, entity) ∈ rest.filter (fun entry =>
      !table.names.contains entry.1) ↔
      (others name ∧ lookup name = some entity) ∧ name ∉ table.names := by
    intro name entity
    simp [List.mem_filter, hrest.mem_iff]
  constructor
  · intro name entity
    rw [List.mem_append, hholds.mem_iff, hkept, hholds.mem_names_iff]
    constructor
    · rintro (⟨hkey, hfound⟩ | ⟨⟨hkey, hfound⟩, -⟩)
      · exact ⟨.inl hkey, hfound⟩
      · exact ⟨.inr hkey, hfound⟩
    · rintro ⟨hkey | hkey, hfound⟩
      · exact .inl ⟨hkey, hfound⟩
      · -- A name of both tables stands for the same in both, so the entry is already there.
        by_cases hboth : keys name
        · exact .inl ⟨hboth, hfound⟩
        · exact .inr ⟨⟨hkey, hfound⟩, fun hnames => hboth hnames.1⟩
  · have hnames : Table.names (table ++ rest.filter fun entry => !table.names.contains entry.1) =
        table.names ++ Table.names (rest.filter fun entry => !table.names.contains entry.1) := by
      simp [names]
    rw [hnames]
    refine List.nodup_append.mpr ⟨hholds.nodup, ?_, ?_⟩
    · exact hrest.nodup.sublist (List.filter_sublist.map Prod.fst)
    · intro a ha b hb hab
      obtain ⟨entity, hentry⟩ := Table.mem_names_iff.mp hb
      exact ((hkept b entity).mp hentry).2 (hab ▸ ha)

/-! ## The order of names -/

theorem sorted_eq_sortByText (table : Table α) : Reach.sorted table = sortByText Prod.fst table :=
  rfl

theorem Holds.lists_sorted (hholds : table.Holds lookup keys) :
    Lists (Reach.sorted table) lookup keys := by
  rw [sorted_eq_sortByText]
  refine ⟨fun name entity => ?_, pairwise_lt_sortByText hholds.nodup⟩
  rw [(sortByText_perm Prod.fst table).mem_iff, hholds.mem_iff]

/-- The merged table of two sides lists what either of them holds. -/
theorem Holds.lists_merged {input output : Table α} (hinput : input.Holds lookup keys)
    (houtput : output.Holds lookup others) :
    Lists (Reach.merged input output) lookup fun name => keys name ∨ others name :=
  (hinput.append_rest houtput).lists_sorted

theorem Lists.eq_of_iff {first second : Table α} (hfirst : first.Lists lookup keys)
    (hsecond : second.Lists found others)
    (hsame : ∀ name entity, keys name ∧ lookup name = some entity ↔
      others name ∧ found name = some entity) : first = second := by
  have hperm : first.Perm second := by
    refine (List.perm_ext_iff_of_nodup ?_ ?_).mpr fun entry => ?_
    · exact hfirst.ascending.imp fun hlt heq => (heq ▸ hlt).ne rfl
    · exact hsecond.ascending.imp fun hlt heq => (heq ▸ hlt).ne rfl
    · rw [hfirst.mem_iff, hsecond.mem_iff, hsame]
  refine hperm.eq_of_pairwise ?_ hfirst.ascending hsecond.ascending
  intro a b _ _ hab hba
  exact absurd hba (lt_asymm hab)

end Table

end ServiceManual
