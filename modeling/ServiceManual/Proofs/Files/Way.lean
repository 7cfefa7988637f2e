import Mathlib.Data.List.Induction
import ServiceManual.Proofs.Files.Tree

/-!
# The way along a path

Names lead to a definite place, whatever is there, as long as there are directories all the way
(`descend`).  So it can be said of every part of a way what stands in its place, also where the
directories before it are missing and have still to be made.

A way is followed to its end exactly if there are directories all the way (`follow_eq_ok_iff`).  If
there is at least no regular file on it, either it is followed to its end or something is missing
(`IsFree.follow_cases`).
-/

namespace ServiceManual

/-! ## Fit paths -/

namespace Text

theorem nameSize_le_of_isPrefix {text more : String} (h : text.toList <+: more.toList) :
    nameSize text ≤ nameSize more := by
  obtain ⟨rest, hrest⟩ := h
  have hgrows : ∀ (rest : List Char) (size : Nat), size ≤ rest.foldl
      (fun size c => size + if isByteSurrogate c then 1 else c.utf8Size) size := by
    intro rest
    induction rest with
    | nil => exact fun size => Nat.le_refl size
    | cons c rest ih => exact fun size => Nat.le_trans (Nat.le_add_right _ _) (ih _)
  rw [nameSize, nameSize, ← hrest, List.foldl_append]
  exact hgrows _ _

end Text

/-- The text of a path begins with that of a path on the way to it, unless that is a dot for the
place where the way starts. -/
theorem Path.toText_append_singleton (anchor : String) (names : List String) (name : String) :
    (Path.mk anchor names).toText = "." ∨ (Path.mk anchor names).toText.toList <+:
      (Path.mk anchor (names ++ [name])).toText.toList := by
  by_cases hempty : (anchor ++ "/".intercalate names).isEmpty = true
  · exact .inl (by simp [toText, hempty])
  · refine .inr ?_
    have hlonger : (anchor ++ "/".intercalate names).toList <+:
        (anchor ++ "/".intercalate (names ++ [name])).toList := by
      rw [String.toList_append, String.toList_append, List.prefix_append_right_inj]
      by_cases hnames : names = []
      · simp [hnames]
      · rw [String.intercalate_append_of_ne_nil hnames (List.cons_ne_nil _ _),
          String.append_assoc, String.toList_append]
        exact List.prefix_append _ _
    -- The longer text is not empty either, so none of the two is a dot.
    have hmore : ¬ (anchor ++ "/".intercalate (names ++ [name])).isEmpty = true := by
      intro hmore
      simp only [String.isEmpty_iff] at hempty hmore
      rw [hmore] at hlonger
      exact hempty (String.toList_eq_nil_iff.mp (List.prefix_nil.mp hlonger))
    simpa only [toText, if_neg hempty, if_neg hmore] using hlonger

namespace FileTree

variable {tree made : FileTree} {location other : Location} {anchor name : String}
  {names before : List String} {path place : Path} {cause : FileError}

theorem unfit?_eq_none_iff : unfit? path = none ↔
    (∀ c ∈ path.toText.toList, Text.isSurrogate c = true → Text.isByteSurrogate c = true) ∧
      '\x00' ∉ path.toText.toList ∧ Text.nameSize path.toText ≤ pathLimit := by
  have hencoded : Text.unnameable? path.toText = none ↔
      ∀ c ∈ path.toText.toList, Text.isSurrogate c = true → Text.isByteSurrogate c = true :=
    Text.firstRow?_eq_none_iff
  rw [← hencoded, unfit?]
  cases Text.unnameable? path.toText with
  | some problem => simp
  | none => simp [ite_eq_iff]

theorem unfit?_of_append_singleton (h : unfit? ⟨anchor, names ++ [name]⟩ = none) :
    unfit? ⟨anchor, names⟩ = none := by
  rcases Path.toText_append_singleton anchor names name with hdot | hbegin
  · rw [unfit?_eq_none_iff, hdot]
    exact ⟨List.forall_mem_singleton.mpr (by decide), by decide, by decide⟩
  · obtain ⟨hencoded, hnull, hsize⟩ := unfit?_eq_none_iff.mp h
    exact unfit?_eq_none_iff.mpr ⟨fun c hc => hencoded c (hbegin.subset hc),
      fun hc => hnull (hbegin.subset hc),
      Nat.le_trans (Text.nameSize_le_of_isPrefix hbegin) hsize⟩

/-! ## Where names lead -/

/-- Where names lead from a location, if there are directories all the way. -/
def descend (location : Location) : List String → Location
  | [] => location
  | name :: rest => descend (if name = ".." then location.dropLast else location ++ [name]) rest

theorem descend_append (location : Location) (before after : List String) :
    descend location (before ++ after) = descend (descend location before) after := by
  induction before generalizing location with
  | nil => rfl
  | cons name rest ih => exact ih _

/-- A name that something can have; a double dot leads back. -/
def IsShort (name : String) : Prop :=
  name = ".." ∨ Text.nameSize name ≤ nameLimit

theorem follow_singleton_eq_ok_iff : tree.follow location [name] = .ok other ↔
    tree.node? location = some .directory ∧ IsShort name ∧ other = descend location [name] := by
  rw [follow_cons_eq_ok_iff, IsShort]
  by_cases hup : name = ".." <;> simp [follow, descend, hup, eq_comm]

/-- Names that can be followed lead through directories. -/
theorem follow_eq_ok_iff : tree.follow location names = .ok other ↔
    (∀ name ∈ names, IsShort name) ∧ (∀ before, before <+: names → before ≠ names →
      tree.node? (descend location before) = some .directory) ∧ other = descend location names := by
  -- From the end: that is where a way becomes longer when directories are made.
  induction names using List.reverseRecOn generalizing other with
  | nil => simp [follow, descend, eq_comm]
  | append_singleton names name ih =>
      simp only [follow_append_eq_ok_iff, ih, follow_singleton_eq_ok_iff, List.forall_mem_append,
        List.forall_mem_singleton, descend_append]
      constructor
      · rintro ⟨middle, ⟨hshort, hdirectory, rfl⟩, hlast, hname, rfl⟩
        refine ⟨⟨hshort, hname⟩, fun before hbefore hne => ?_, rfl⟩
        -- A part of the longer way is all of it, the shorter way, or a part of that.
        rcases List.prefix_concat_iff.mp hbefore with rfl | hbefore
        · exact absurd rfl hne
        · by_cases hall : before = names
          · exact hall ▸ hlast
          · exact hdirectory before hbefore hall
      · rintro ⟨⟨hshort, hname⟩, hdirectory, rfl⟩
        have hne : names ≠ names ++ [name] := by simp
        refine ⟨_, ⟨hshort, fun before hbefore hall => ?_, rfl⟩,
          hdirectory names (List.prefix_append _ _) hne, hname, rfl⟩
        refine hdirectory before (hbefore.trans (List.prefix_append _ _)) ?_
        rintro rfl
        exact hne (hbefore.eq_of_length_le (by simp)).symm

/-! ## Ways without a regular file -/

/-- Nothing on the way along names is a regular file, their end left open, and none of them is too
long.  Directories may be missing. -/
structure IsFree (tree : FileTree) (location : Location) (names : List String) : Prop where
  short : ∀ name ∈ names, IsShort name
  free : ∀ before, before <+: names → before ≠ names →
    tree.contents? (descend location before) = none

theorem contents?_of_directory (h : tree.node? location = some .directory) :
    tree.contents? location = none := by
  simp only [contents?, h]

theorem isFree_of_follow (h : tree.follow location names = .ok other) :
    tree.IsFree location names := by
  obtain ⟨hshort, hdirectory, -⟩ := follow_eq_ok_iff.mp h
  exact ⟨hshort, fun before hbefore hne =>
    contents?_of_directory (hdirectory before hbefore hne)⟩

theorem IsFree.congr (h : tree.IsFree location names) (hsame : made.contents? = tree.contents?) :
    made.IsFree location names :=
  ⟨h.short, fun before hbefore hne => hsame ▸ h.free before hbefore hne⟩

theorem isFree_append_singleton_iff : tree.IsFree location (names ++ [name]) ↔
    tree.IsFree location names ∧ tree.contents? (descend location names) = none ∧
      IsShort name := by
  constructor
  · rintro ⟨hshort, hfree⟩
    rw [List.forall_mem_append, List.forall_mem_singleton] at hshort
    refine ⟨⟨hshort.1, fun before hbefore hne => ?_⟩,
      hfree names (List.prefix_append _ _) (by simp), hshort.2⟩
    refine hfree before (hbefore.trans (List.prefix_append _ _)) ?_
    rintro rfl
    exact hne (hbefore.eq_of_length_le (by simp))
  · rintro ⟨⟨hshort, hfree⟩, hend, hname⟩
    rw [← List.forall_mem_singleton (p := IsShort)] at hname
    refine ⟨List.forall_mem_append.mpr ⟨hshort, hname⟩, fun before hbefore hne => ?_⟩
    rcases List.prefix_concat_iff.mp hbefore with rfl | hbefore
    · exact absurd rfl hne
    · by_cases hall : before = names
      · exact hall ▸ hend
      · exact hfree before hbefore hall

/-- A free way is followed to its end, or something is missing on it. -/
theorem IsFree.follow_cases (h : tree.IsFree location names) :
    tree.follow location names = .ok (descend location names) ∨
      tree.follow location names = .error .notFound ∧
        ∃ before, before <+: names ∧ tree.node? (descend location before) = none := by
  induction names using List.reverseRecOn with
  | nil => exact .inl rfl
  | append_singleton names name ih =>
      obtain ⟨hfree, hend, hname⟩ := isFree_append_singleton_iff.mp h
      rcases ih hfree with hway | ⟨hway, before, hbefore, hmissing⟩
      -- The way so far has been followed, so all depends on what is at its end.
      · cases hnode : tree.node? (descend location names) with
        | none =>
            refine .inr ⟨?_, names, List.prefix_append _ _, hnode⟩
            simp [follow_append, hway, Except.bind, follow, hnode]
        | some node =>
            cases node with
            | file contents => simp [contents?, hnode] at hend
            | directory =>
                refine .inl ?_
                rw [follow_append, hway, descend_append]
                exact follow_singleton_eq_ok_iff.mpr ⟨hnode, hname, rfl⟩
      · refine .inr ⟨?_, before, hbefore.trans (List.prefix_append _ _), hmissing⟩
        rw [follow_append, hway]
        rfl

/-- Where something is missing on a free way it is not followed further. -/
theorem IsFree.follow_eq_notFound (h : tree.IsFree location names) (hbefore : before <+: names)
    (hmissing : tree.node? (descend location before) = none)
    (hend : tree.node? (descend location names) ≠ none) (more : List String) :
    tree.follow location (names ++ more) = .error .notFound := by
  rcases h.follow_cases with hway | ⟨hway, -⟩
  · by_cases hall : before = names
    · exact absurd (hall ▸ hmissing) hend
    · have hdirectory := (follow_eq_ok_iff.mp hway).2.1 before hbefore hall
      cases hdirectory.symm.trans hmissing
  · rw [follow_append, hway]
    rfl

/-! ## Located paths -/

theorem locate_of_fit (hfit : unfit? path = none) :
    tree.locate path = tree.follow (tree.start path) path.segments := by
  simp only [locate, hfit, start]

theorem locate_eq_notFound_iff : tree.locate path = .error .notFound ↔
    unfit? path = none ∧ tree.follow (tree.start path) path.segments = .error .notFound := by
  constructor
  · intro h
    cases hfit : unfit? path with
    | none => exact ⟨rfl, (locate_of_fit hfit).symm.trans h⟩
    | some cause =>
        have hcause := eq_of_unfit?_eq_some hfit
        simp only [locate, hfit, Except.error.injEq] at h
        simp [h] at hcause
  · rintro ⟨hfit, hfollow⟩
    exact (locate_of_fit hfit).trans hfollow

theorem started_of_locate (h : tree.locate ⟨anchor, names ++ [name]⟩ = .ok location) :
    tree.node? (tree.start ⟨anchor, names ++ [name]⟩) = some .directory :=
  (follow_eq_ok_iff.mp (locate_eq_ok_iff.mp h).2).2.1 [] List.nil_prefix (by simp)

theorem locate_append_singleton (hfit : unfit? ⟨anchor, names ++ [name]⟩ = none)
    (hway : tree.follow (tree.start ⟨anchor, names⟩) names = .ok location)
    (hnode : tree.node? location = some .directory) (hname : IsShort name) :
    tree.locate ⟨anchor, names ++ [name]⟩ =
      .ok (descend (tree.start ⟨anchor, names⟩) (names ++ [name])) := by
  obtain ⟨-, -, rfl⟩ := follow_eq_ok_iff.mp hway
  rw [locate_of_fit hfit]
  change tree.follow (tree.start ⟨anchor, names⟩) (names ++ [name]) = _
  rw [follow_append, hway, descend_append]
  exact follow_singleton_eq_ok_iff.mpr ⟨hnode, hname, rfl⟩

/-- What is there is in a directory. -/
theorem isDirectory_of_doesExist (h : tree.doesExist ⟨anchor, names ++ [name]⟩ = .ok true) :
    tree.isDirectory ⟨anchor, names⟩ = true := by
  obtain ⟨location, hlocate, -⟩ := exists_locate_of_doesExist h
  obtain ⟨hfit, hfollow⟩ := locate_eq_ok_iff.mp hlocate
  obtain ⟨middle, hway, hlast⟩ := follow_append_eq_ok_iff.mp hfollow
  have hparent : tree.locate ⟨anchor, names⟩ = .ok middle :=
    locate_eq_ok_iff.mpr ⟨unfit?_of_append_singleton hfit, hway⟩
  simp [isDirectory, lookUp, hparent, (follow_cons_eq_ok_iff.mp hlast).1]

end FileTree

end ServiceManual
