import ServiceManual.Proofs.Files.Way

/-!
# Making the way to a directory

A directory is made together with those that are missing on the way to it, from the end of the way
back to where something is and then forth again.  A regular file on the way stops that in one of two
manners.  As the end of the way, or behind something missing, it is found where a directory is to be
made, and *something exists already*.  On a way that is all there it is found by following the way,
and *something is no directory*.

The first happens exactly if the way is blocked (`IsBlockedAt`), which can be seen beforehand
(`makeDirectories_eq_alreadyExists_iff`).  Without a regular file on it the way is made to its end
(`makeDirectories_of_isFree`), unless a name or the path is too long.
-/

namespace ServiceManual.FileTree

variable {tree made : FileTree} {location : Location} {anchor name : String}
  {names : List String} {path place : Path}

/-! ## Making one directory -/

/-- A directory is made where nothing is, and taken as it is where there is one. -/
theorem ensureDirectory_eq (tree : FileTree) (path : Path) :
    tree.ensureDirectory path =
      match tree.locate path with
      | .error cause => .error cause
      | .ok location =>
        match tree.node? location with
        | none => .ok (tree.put location .directory)
        | some .directory => .ok tree
        | some (.file _) => .error .alreadyExists := by
  rw [ensureDirectory, makeDirectory, isDirectory, lookUp]
  cases tree.locate path with
  | error cause => cases cause <;> rfl
  | ok location =>
      cases hnode : tree.node? location with
      | none => simp [hnode]
      | some node => cases node <;> simp [hnode]

theorem ensureDirectory_eq_notFound_iff :
    tree.ensureDirectory path = .error .notFound ↔ tree.locate path = .error .notFound := by
  rw [ensureDirectory_eq]
  cases tree.locate path with
  | error cause => simp
  | ok location =>
      cases hnode : tree.node? location with
      | none => simp [hnode]
      | some node => cases node <;> simp [hnode]

theorem exists_of_ensureDirectory (h : tree.ensureDirectory path = .ok made) :
    ∃ location, made.locate path = .ok location ∧ made.node? location = some .directory := by
  rw [ensureDirectory_eq] at h
  cases hlocate : tree.locate path with
  | error cause => simp [hlocate] at h
  | ok location =>
      simp only [hlocate] at h
      cases hnode : tree.node? location with
      | none =>
          simp only [hnode, Except.ok.injEq] at h
          subst h
          -- The way to what has been made is still there.
          have hgrows := AddsDirectory.grows ⟨location, hnode, rfl⟩
          refine ⟨location, hgrows.keepsDirectories.locate hlocate, ?_⟩
          rw [node?_put (AddsDirectory.root_ne hnode), if_pos rfl]
      | some node =>
          cases node with
          | file contents => simp [hnode] at h
          | directory =>
              simp only [hnode, Except.ok.injEq] at h
              exact ⟨location, h ▸ hlocate, h ▸ hnode⟩

/-! ## Making the way -/

/-- The way is made from its end, back to where something is and then forth again. -/
theorem makeDirectories_append_singleton (tree : FileTree) (anchor : String) (names : List String)
    (name : String) :
    tree.makeDirectories ⟨anchor, names ++ [name]⟩ =
      match tree.ensureDirectory ⟨anchor, names ++ [name]⟩ with
      | .ok made => (none, made)
      | .error .notFound =>
        match tree.makeDirectories ⟨anchor, names⟩ with
        | (some failure, made) => (some failure, made)
        | (none, made) =>
          match made.ensureDirectory ⟨anchor, names ++ [name]⟩ with
          | .ok complete => (none, complete)
          | .error cause => (some (⟨anchor, names ++ [name]⟩, cause), made)
      | .error cause => (some (⟨anchor, names ++ [name]⟩, cause), tree) := by
  rw [makeDirectories, List.reverse_append, List.reverse_singleton, List.singleton_append,
    ensureWay]
  simp only [List.reverse_cons, List.reverse_reverse]
  rfl

/-- Why a directory is not made at the end of a path, the way to which is there. -/
def refusal? (tree : FileTree) (path : Path) : Option (Path × FileError) :=
  match tree.ensureDirectory path with
  | .ok _ => none
  | .error cause => some (path, cause)

/-- Where the way to the end is there, it is the end that decides. -/
theorem fst_makeDirectories_of_present
    (h : tree.locate ⟨anchor, names ++ [name]⟩ ≠ .error .notFound) :
    (tree.makeDirectories ⟨anchor, names ++ [name]⟩).1 =
      tree.refusal? ⟨anchor, names ++ [name]⟩ := by
  replace h := ensureDirectory_eq_notFound_iff.not.mpr h
  rw [makeDirectories_append_singleton, refusal?]
  split
  · rename_i hmade
    simp only [hmade]
  · rename_i hmissing
    exact absurd hmissing h
  · rename_i hcause
    simp only [hcause]

/-- Where it is not, it is made before the end is. -/
theorem fst_makeDirectories_of_missing
    (h : tree.locate ⟨anchor, names ++ [name]⟩ = .error .notFound) :
    (tree.makeDirectories ⟨anchor, names ++ [name]⟩).1 =
      match tree.makeDirectories ⟨anchor, names⟩ with
      | (some failure, _) => some failure
      | (none, made) => made.refusal? ⟨anchor, names ++ [name]⟩ := by
  rw [makeDirectories_append_singleton, ensureDirectory_eq_notFound_iff.mpr h]
  rcases tree.makeDirectories ⟨anchor, names⟩ with ⟨_ | failure, made⟩
  · simp only [refusal?]
    cases made.ensureDirectory ⟨anchor, names ++ [name]⟩ <;> rfl
  · rfl

theorem refusal?_of_locate (h : tree.locate path = .ok location) :
    tree.refusal? path = (tree.contents? location).map fun _ => (path, .alreadyExists) := by
  rw [refusal?, ensureDirectory_eq, h, contents?]
  cases hnode : tree.node? location with
  | none => simp [hnode]
  | some node => cases node <;> simp [hnode]

theorem refusal?_eq_alreadyExists_iff : tree.refusal? path = some (place, .alreadyExists) ↔
    place = path ∧ ∃ location, tree.locate path = .ok location ∧
      tree.contents? location ≠ none := by
  cases hlocate : tree.locate path with
  | error cause =>
      have hcause := eq_of_locate_eq_error hlocate
      rw [refusal?, ensureDirectory_eq, hlocate]
      simp only [Option.some.injEq, Prod.mk.injEq, reduceCtorEq, false_and, exists_false, and_false,
        iff_false, not_and]
      rintro - rfl
      simp at hcause
  | ok location =>
      rw [refusal?_of_locate hlocate]
      cases hfile : tree.contents? location <;> simp [hfile, eq_comm]

theorem start_eq (hkeeps : tree.KeepsDirectories made) : made.start path = tree.start path := by
  rw [start, start, hkeeps.workingDirectory]

theorem keepsDirectories_makeDirectories (tree : FileTree) (path : Path) :
    tree.KeepsDirectories (tree.makeDirectories path).2 :=
  (grows_makeDirectories tree path).keepsDirectories

theorem exists_follow_of_makeDirectories (hstart : tree.node? (tree.start path) = some .directory)
    (h : tree.makeDirectories path = (none, made)) :
    ∃ location, made.follow (tree.start path) path.segments = .ok location ∧
      made.node? location = some .directory := by
  have hkeeps := tree.keepsDirectories_makeDirectories path
  rw [h] at hkeeps
  obtain ⟨anchor, names⟩ := path
  cases names using List.reverseRecOn with
  | nil =>
      obtain rfl : tree = made := (Prod.mk.inj h).2
      exact ⟨_, rfl, hstart⟩
  | append_singleton names name =>
      -- The last directory is there, made before or after those on the way to it.
      have hlast : ∃ location, made.locate ⟨anchor, names ++ [name]⟩ = .ok location ∧
          made.node? location = some .directory := by
        rw [makeDirectories_append_singleton] at h
        split at h
        · rename_i hmade
          obtain ⟨-, rfl⟩ := Prod.mk.inj h
          exact exists_of_ensureDirectory hmade
        · split at h
          · simp at h
          · split at h
            · rename_i hmade
              obtain ⟨-, rfl⟩ := Prod.mk.inj h
              exact exists_of_ensureDirectory hmade
            · simp at h
        · simp at h
      obtain ⟨location, hlocate, hnode⟩ := hlast
      have hfollow := (locate_eq_ok_iff.mp hlocate).2
      rw [start_eq hkeeps] at hfollow
      exact ⟨location, hfollow, hnode⟩

/-- The regular file at which the making of a directory ends: the first one on the way to it, if
that is its end or lies behind something missing. -/
structure IsBlockedAt (tree : FileTree) (directory place : Path) : Prop where
  fit : unfit? directory = none
  started : tree.node? (tree.start directory) = some .directory
  onWay : place.anchor = directory.anchor ∧ place.segments <+: directory.segments
  free : tree.IsFree (tree.start directory) place.segments
  file : tree.contents? (descend (tree.start directory) place.segments) ≠ none
  met : place = directory ∨ ∃ before, before <+: place.segments ∧
    tree.node? (descend (tree.start directory) before) = none

/-- If the way to the end is made, it is the end that decides. -/
theorem fst_makeDirectories_of_isFree (hfit : unfit? ⟨anchor, names ++ [name]⟩ = none)
    (hstart : tree.node? (tree.start ⟨anchor, names⟩) = some .directory)
    (hfree : tree.IsFree (tree.start ⟨anchor, names⟩) (names ++ [name]))
    (hway : (tree.makeDirectories ⟨anchor, names⟩).1 = none) :
    (tree.makeDirectories ⟨anchor, names ++ [name]⟩).1 =
      (tree.contents? (descend (tree.start ⟨anchor, names⟩) (names ++ [name]))).map
        fun _ => (⟨anchor, names ++ [name]⟩, .alreadyExists) := by
  rcases hfree.follow_cases with hfollow | ⟨hfollow, -⟩
  · have hlocate := (locate_of_fit hfit).trans hfollow
    rw [fst_makeDirectories_of_present (by simp [hlocate])]
    exact refusal?_of_locate hlocate
  · -- Something is missing, and it is looked again when it has been made.
    obtain ⟨made, hmade⟩ : ∃ made, tree.makeDirectories ⟨anchor, names⟩ = (none, made) :=
      ⟨_, Prod.ext hway rfl⟩
    obtain ⟨location, hmadeWay, hnode⟩ := exists_follow_of_makeDirectories hstart hmade
    have hkeeps := tree.keepsDirectories_makeDirectories ⟨anchor, names⟩
    have hcontents := tree.contents?_makeDirectories ⟨anchor, names⟩
    rw [hmade] at hkeeps hcontents
    rw [← start_eq hkeeps] at hmadeWay
    have hlocate := locate_append_singleton hfit hmadeWay hnode
      (isFree_append_singleton_iff.mp hfree).2.2
    rw [fst_makeDirectories_of_missing ((locate_of_fit hfit).trans hfollow), hmade]
    rw [start_eq hkeeps] at hlocate
    exact hcontents ▸ refusal?_of_locate hlocate

theorem makeDirectories_of_isFree (hfit : unfit? ⟨anchor, names⟩ = none)
    (hstart : tree.node? (tree.start ⟨anchor, names⟩) = some .directory)
    (hfree : tree.IsFree (tree.start ⟨anchor, names⟩) names)
    (hend : tree.contents? (descend (tree.start ⟨anchor, names⟩) names) = none) :
    (tree.makeDirectories ⟨anchor, names⟩).1 = none := by
  induction names using List.reverseRecOn with
  | nil => rfl
  | append_singleton names name ih =>
      obtain ⟨hbefore, hlast, hname⟩ := isFree_append_singleton_iff.mp hfree
      have hway := ih (unfit?_of_append_singleton hfit) hstart hbefore hlast
      rw [fst_makeDirectories_of_isFree hfit hstart hfree hway]
      exact Option.map_eq_none_iff.mpr hend

/-! ## A regular file on the way -/

theorem isBlockedAt_self (hkeeps : tree.KeepsDirectories made)
    (hcontents : made.contents? = tree.contents?)
    (hstart : tree.node? (tree.start path) = some .directory)
    (hlocate : made.locate path = .ok location) (hfile : made.contents? location ≠ none) :
    tree.IsBlockedAt path path := by
  obtain ⟨hfit, hfollow⟩ := locate_eq_ok_iff.mp hlocate
  rw [start_eq hkeeps] at hfollow
  obtain ⟨-, -, rfl⟩ := follow_eq_ok_iff.mp hfollow
  exact ⟨hfit, hstart, ⟨rfl, List.prefix_rfl⟩, (isFree_of_follow hfollow).congr hcontents.symm,
    hcontents ▸ hfile, .inl rfl⟩

/-- What blocks the way to a missing place blocks the way beyond. -/
theorem IsBlockedAt.beyond (h : tree.IsBlockedAt ⟨anchor, names⟩ place)
    (hfit : unfit? ⟨anchor, names ++ [name]⟩ = none)
    (hmissing : tree.follow (tree.start ⟨anchor, names⟩) (names ++ [name]) = .error .notFound) :
    tree.IsBlockedAt ⟨anchor, names ++ [name]⟩ place := by
  obtain ⟨-, hstart, ⟨hanchor, hsegments⟩, hfree, hfile, hmet⟩ := h
  refine ⟨hfit, hstart, ⟨hanchor, hsegments.trans (List.prefix_append _ _)⟩, hfree, hfile,
    .inr ?_⟩
  rcases hmet with rfl | hmet
  · -- Otherwise the way would end at a file and not at something missing.
    rcases hfree.follow_cases with hway | ⟨-, hmet⟩
    · obtain ⟨contents, hcontents⟩ := Option.ne_none_iff_exists'.mp hfile
      have hnode := contents?_eq_some_iff.mp hcontents
      rw [follow_append, hway] at hmissing
      simp [Except.bind, follow, hnode] at hmissing
    · exact hmet
  · exact hmet

theorem makeDirectories_of_not_started
    (hstart : tree.node? (tree.start ⟨anchor, names⟩) ≠ some .directory) :
    (tree.makeDirectories ⟨anchor, names⟩).2 = tree := by
  induction names using List.reverseRecOn with
  | nil => rfl
  | append_singleton names name ih =>
      have hbefore := ih hstart
      -- Nothing is located behind such a start, so no directory is made there.
      obtain ⟨cause, hcause⟩ :
          ∃ cause, tree.ensureDirectory ⟨anchor, names ++ [name]⟩ = .error cause := by
        cases hlocate : tree.locate ⟨anchor, names ++ [name]⟩ with
        | error cause => exact ⟨cause, by rw [ensureDirectory_eq, hlocate]⟩
        | ok location => exact absurd (started_of_locate hlocate) hstart
      rw [makeDirectories_append_singleton, hcause]
      by_cases hmissing : cause = .notFound
      · subst hmissing
        rcases hmade : tree.makeDirectories ⟨anchor, names⟩ with ⟨_ | failure, made⟩
        · rw [hmade] at hbefore
          obtain rfl : made = tree := hbefore
          simp only [hcause]
        · exact congrArg Prod.snd hmade ▸ hbefore
      · cases cause <;> first | rfl | exact absurd rfl hmissing

theorem started_of_made (hmade : tree.makeDirectories ⟨anchor, names⟩ = (none, made))
    (hlocate : made.locate ⟨anchor, names ++ [name]⟩ = .ok location) :
    tree.node? (tree.start ⟨anchor, names⟩) = some .directory := by
  by_contra hstart
  have hsame := makeDirectories_of_not_started hstart
  rw [hmade] at hsame
  obtain rfl : made = tree := hsame
  exact hstart (started_of_locate hlocate)

/-- Where the way to the end is there, making stops at the end if that is a regular file. -/
theorem refusal?_iff_isBlockedAt
    (hpresent : tree.locate ⟨anchor, names ++ [name]⟩ ≠ .error .notFound) :
    tree.refusal? ⟨anchor, names ++ [name]⟩ = some (place, .alreadyExists) ↔
      tree.IsBlockedAt ⟨anchor, names ++ [name]⟩ place := by
  rw [refusal?_eq_alreadyExists_iff]
  constructor
  · rintro ⟨rfl, location, hlocate, hfile⟩
    exact isBlockedAt_self (.refl tree) rfl (started_of_locate hlocate) hlocate hfile
  · rintro ⟨hfit, -, ⟨-, more, hmore⟩, hfree, hfile, rfl | ⟨before, hbefore, hnone⟩⟩
    · rcases hfree.follow_cases with hway | ⟨hway, -⟩
      · exact ⟨rfl, _, (locate_of_fit hfit).trans hway, hfile⟩
      · exact absurd (locate_eq_notFound_iff.mpr ⟨hfit, hway⟩) hpresent
    · -- Behind something missing the end would be missing too.
      have hend : tree.node? (descend _ place.segments) ≠ none := fun hnode =>
        hfile (by rw [contents?, hnode])
      have hway := hfree.follow_eq_notFound hbefore hnone hend more
      rw [hmore] at hway
      exact absurd (locate_eq_notFound_iff.mpr ⟨hfit, hway⟩) hpresent

theorem isBlockedAt_of_missing
    (ih : ∀ {place}, (tree.makeDirectories ⟨anchor, names⟩).1 = some (place, .alreadyExists) →
      tree.IsBlockedAt ⟨anchor, names⟩ place)
    (hmissing : tree.locate ⟨anchor, names ++ [name]⟩ = .error .notFound)
    (hstop : (tree.makeDirectories ⟨anchor, names ++ [name]⟩).1 = some (place, .alreadyExists)) :
    tree.IsBlockedAt ⟨anchor, names ++ [name]⟩ place := by
  obtain ⟨hfit, hfollow⟩ := locate_eq_notFound_iff.mp hmissing
  rw [fst_makeDirectories_of_missing hmissing] at hstop
  rcases hmade : tree.makeDirectories ⟨anchor, names⟩ with ⟨_ | failure, made⟩
  · -- The way was made and the file found behind it, as it was before.
    rw [hmade] at hstop
    obtain ⟨rfl, location, hlocate, hfile⟩ := refusal?_eq_alreadyExists_iff.mp hstop
    have hkeeps := tree.keepsDirectories_makeDirectories ⟨anchor, names⟩
    have hcontents := tree.contents?_makeDirectories ⟨anchor, names⟩
    rw [hmade] at hkeeps hcontents
    have hstart : tree.node? (tree.start ⟨anchor, names⟩) = some .directory :=
      started_of_made hmade hlocate
    exact isBlockedAt_self hkeeps hcontents hstart hlocate hfile
  · -- The file was met on the way.
    rw [hmade] at hstop
    obtain rfl := Option.some.inj hstop
    exact (ih (by rw [hmade])).beyond hfit hfollow

theorem fst_makeDirectories_of_isBlockedAt
    (ih : ∀ {place}, tree.IsBlockedAt ⟨anchor, names⟩ place →
      (tree.makeDirectories ⟨anchor, names⟩).1 = some (place, .alreadyExists))
    (hmissing : tree.locate ⟨anchor, names ++ [name]⟩ = .error .notFound)
    (hblocked : tree.IsBlockedAt ⟨anchor, names ++ [name]⟩ place) :
    (tree.makeDirectories ⟨anchor, names ++ [name]⟩).1 = some (place, .alreadyExists) := by
  obtain ⟨hfit, hstart, ⟨hanchor, hsegments⟩, hfree, hfile, hmet⟩ := hblocked
  rcases List.prefix_concat_iff.mp hsegments with hend | hbefore
  · -- The way is made, and its end is the file.
    obtain ⟨first, segments⟩ := place
    obtain ⟨rfl, rfl⟩ : first = anchor ∧ segments = names ++ [name] := ⟨hanchor, hend⟩
    obtain ⟨hbefore, hlast, -⟩ := isFree_append_singleton_iff.mp hfree
    have hway := makeDirectories_of_isFree (unfit?_of_append_singleton hfit) hstart hbefore hlast
    rw [fst_makeDirectories_of_isFree hfit hstart hfree hway, Option.map_eq_some_iff]
    obtain ⟨contents, hcontents⟩ := Option.ne_none_iff_exists'.mp hfile
    exact ⟨contents, hcontents, rfl⟩
  · -- The way is not made to its end.
    have hbehind : place.segments ≠ names ++ [name] := fun hend => by
      have hlength := hbefore.length_le
      rw [hend, List.length_append, List.length_singleton] at hlength
      omega
    have hstop := ih ⟨unfit?_of_append_singleton hfit, hstart, ⟨hanchor, hbefore⟩, hfree, hfile,
      .inr (hmet.resolve_left fun hend => hbehind (by rw [hend]))⟩
    rw [fst_makeDirectories_of_missing hmissing]
    rcases hmade : tree.makeDirectories ⟨anchor, names⟩ with ⟨_ | failure, made⟩
    · simp [hmade] at hstop
    · rwa [hmade] at hstop

/-- **Where a regular file stops the making of a directory.**  That something exists already is
found exactly where the way is blocked. -/
theorem makeDirectories_eq_alreadyExists_iff :
    (tree.makeDirectories path).1 = some (place, .alreadyExists) ↔ tree.IsBlockedAt path place := by
  obtain ⟨anchor, names⟩ := path
  induction names using List.reverseRecOn generalizing place with
  | nil =>
      constructor
      · nofun
      · rintro ⟨-, hstart, ⟨-, hsegments⟩, -, hfile, -⟩
        rw [List.prefix_nil.mp hsegments] at hfile
        exact absurd (contents?_of_directory hstart) hfile
  | append_singleton names name ih =>
      by_cases hmissing : tree.locate ⟨anchor, names ++ [name]⟩ = .error .notFound
      · exact ⟨isBlockedAt_of_missing ih.mp hmissing,
          fst_makeDirectories_of_isBlockedAt ih.mpr hmissing⟩
      · rw [fst_makeDirectories_of_present hmissing]
        exact refusal?_iff_isBlockedAt hmissing

end ServiceManual.FileTree
