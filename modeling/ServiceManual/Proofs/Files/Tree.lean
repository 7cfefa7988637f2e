import Mathlib.Data.List.Basic
import Mathlib.Logic.Function.Basic
import Mathlib.Logic.Relation
import ServiceManual.Files.Tree

/-!
# What operations leave of a file tree

Making directories changes nothing that is there (`FileTree.Grows`).  Writing a file changes one
location, and that is never one of a directory, so every directory stays
(`FileTree.KeepsDirectories`).  The way along a path goes through directories only; hence a path
that leads somewhere leads there after either operation (`KeepsDirectories.locate`), and what is
written under a path is read under it (`read_write`).  Of the regular files making directories
changes none and writing changes one (`exists_contents?_of_write`).

Two paths below one directory that hold no double dots lead to different locations
(`locate_append_inj`), so what is written under one of them leaves the other alone.
-/

namespace ServiceManual.FileTree

variable {tree later last made written : FileTree} {path : Path} {location other : Location}
  {names : List String} {contents : ByteArray}

/-! ## Nodes -/

theorem node?_root : tree.node? [] = some .directory := rfl

theorem node?_put {node : Node} (hroot : location ≠ []) :
    (tree.put location node).node? other =
      if other = location then some node else tree.node? other := by
  cases other with
  | nil => rw [if_neg hroot.symm, node?_root, node?_root]
  | cons name rest =>
      by_cases hsame : name :: rest = location
      · simp [node?, put, hsame, hroot]
      -- `put` drops the old entries of its own location only.
      · have hother : location ≠ name :: rest := fun h => hsame h.symm
        have hfilter : (tree.nodes.filter fun entry => entry.1 != location).find?
            (fun entry => entry.1 == name :: rest) =
            tree.nodes.find? fun entry => entry.1 == name :: rest := by
          rw [List.find?_filter]
          congr 1
          funext entry
          by_cases hentry : entry.1 = name :: rest
          · simp [hentry, hsame]
          · simp [hentry]
        simp [node?, put, hsame, hother, hfilter]

/-! ## What stays -/

/-- Whatever is a directory stays one. -/
structure KeepsDirectories (tree later : FileTree) : Prop where
  workingDirectory : later.workingDirectory = tree.workingDirectory
  directory : ∀ location, tree.node? location = some .directory →
    later.node? location = some .directory

/-- Whatever is there stays as it is. -/
structure Grows (tree later : FileTree) : Prop where
  workingDirectory : later.workingDirectory = tree.workingDirectory
  node : ∀ location node, tree.node? location = some node → later.node? location = some node

theorem Grows.refl (tree : FileTree) : tree.Grows tree :=
  ⟨rfl, fun _ _ h => h⟩

theorem Grows.trans (hfirst : tree.Grows later) (hsecond : later.Grows last) : tree.Grows last :=
  ⟨hsecond.workingDirectory.trans hfirst.workingDirectory,
    fun location node h => hsecond.node location node (hfirst.node location node h)⟩

theorem Grows.keepsDirectories (hgrows : tree.Grows later) : tree.KeepsDirectories later :=
  ⟨hgrows.workingDirectory, fun location => hgrows.node location .directory⟩

theorem KeepsDirectories.refl (tree : FileTree) : tree.KeepsDirectories tree :=
  (Grows.refl tree).keepsDirectories

theorem KeepsDirectories.trans (hfirst : tree.KeepsDirectories later)
    (hsecond : later.KeepsDirectories last) : tree.KeepsDirectories last :=
  ⟨hsecond.workingDirectory.trans hfirst.workingDirectory,
    fun location h => hsecond.directory location (hfirst.directory location h)⟩

/-! ## Following a path -/

/-- From where a path is followed. -/
def start (tree : FileTree) (path : Path) : Location :=
  if path.anchor.isEmpty then tree.workingDirectory else []

theorem locate_eq_ok_iff : tree.locate path = .ok location ↔
    unfit? path = none ∧ tree.follow (tree.start path) path.segments = .ok location := by
  unfold locate start
  cases unfit? path <;> simp

/-- A name is followed from a directory: back if it is a double dot, else down. -/
theorem follow_cons_eq_ok_iff {name : String} :
    tree.follow location (name :: names) = .ok other ↔
      tree.node? location = some .directory ∧
        ((name = ".." ∧ tree.follow location.dropLast names = .ok other) ∨
          (name ≠ ".." ∧ Text.nameSize name ≤ nameLimit ∧
            tree.follow (location ++ [name]) names = .ok other)) := by
  rw [follow]
  cases hnode : tree.node? location with
  | none => simp
  | some node =>
      cases node with
      | file contents => simp
      | directory =>
          by_cases hup : name = ".."
          · simp [hup]
          · by_cases hlong : nameLimit < Text.nameSize name
            · simp [hup, hlong, Nat.not_le.mpr hlong]
            · simp [hup, hlong, Nat.le_of_not_lt hlong]

theorem KeepsDirectories.follow (hkeeps : tree.KeepsDirectories later)
    (h : tree.follow location names = .ok other) : later.follow location names = .ok other := by
  induction names generalizing location with
  | nil => exact h
  | cons name rest ih =>
      obtain ⟨hdirectory, hway⟩ := follow_cons_eq_ok_iff.mp h
      refine follow_cons_eq_ok_iff.mpr ⟨hkeeps.directory _ hdirectory, ?_⟩
      rcases hway with ⟨hup, hrest⟩ | ⟨hdown, hshort, hrest⟩
      · exact .inl ⟨hup, ih hrest⟩
      · exact .inr ⟨hdown, hshort, ih hrest⟩

theorem KeepsDirectories.locate (hkeeps : tree.KeepsDirectories later)
    (h : tree.locate path = .ok location) : later.locate path = .ok location := by
  obtain ⟨hfit, hfollow⟩ := locate_eq_ok_iff.mp h
  have hstart : later.start path = tree.start path := by
    rw [start, start, hkeeps.workingDirectory]
  exact locate_eq_ok_iff.mpr ⟨hfit, hstart ▸ hkeeps.follow hfollow⟩

theorem follow_append (tree : FileTree) (location : Location) (before after : List String) :
    tree.follow location (before ++ after) =
      (tree.follow location before).bind fun middle => tree.follow middle after := by
  induction before generalizing location with
  | nil => rfl
  | cons name rest ih =>
      rw [List.cons_append, follow, follow]
      cases tree.node? location with
      | none => rfl
      | some node =>
          cases node with
          | file contents => rfl
          | directory =>
              by_cases hup : (name == "..") = true
              · simp only [if_pos hup, ih]
              · by_cases hlong : nameLimit < Text.nameSize name
                · simp only [if_neg hup, if_pos hlong]
                  rfl
                · simp only [if_neg hup, if_neg hlong, ih]

theorem follow_append_eq_ok_iff {before after : List String} :
    tree.follow location (before ++ after) = .ok other ↔
      ∃ middle, tree.follow location before = .ok middle ∧
        tree.follow middle after = .ok other := by
  rw [follow_append]
  cases tree.follow location before <;> simp [Except.bind]

/-- Names that are no double dots lead straight down. -/
theorem eq_append_of_follow (hplain : ∀ name ∈ names, name ≠ "..")
    (h : tree.follow location names = .ok other) : other = location ++ names := by
  induction names generalizing location with
  | nil => simpa [follow] using h.symm
  | cons name rest ih =>
      obtain ⟨-, ⟨hup, -⟩ | ⟨-, -, hrest⟩⟩ := follow_cons_eq_ok_iff.mp h
      · exact absurd hup (hplain name List.mem_cons_self)
      · rw [ih (fun name h => hplain name (List.mem_cons_of_mem _ h)) hrest, List.append_assoc,
          List.singleton_append]

/-- Different plain ways down from one directory lead to different locations. -/
theorem locate_append_inj {directory : Path} {more : List String}
    (hnames : ∀ name ∈ names, name ≠ "..") (hmore : ∀ name ∈ more, name ≠ "..")
    (hfirst : tree.locate (directory.append names) = .ok location)
    (hsecond : tree.locate (directory.append more) = .ok location) : names = more := by
  obtain ⟨base, hbase, hdown⟩ := follow_append_eq_ok_iff.mp (locate_eq_ok_iff.mp hfirst).2
  obtain ⟨other, hother, hmoreDown⟩ := follow_append_eq_ok_iff.mp (locate_eq_ok_iff.mp hsecond).2
  -- Both start below the directory itself.
  obtain rfl : base = other := Except.ok.inj (hbase.symm.trans hother)
  have hlocation := eq_append_of_follow hnames hdown
  rw [eq_append_of_follow hmore hmoreDown] at hlocation
  exact (List.append_cancel_left hlocation).symm

/-! ## Reading -/

theorem read_eq_ok_iff : tree.read path = .ok contents ↔
    ∃ location, tree.locate path = .ok location ∧
      tree.node? location = some (.file contents) := by
  unfold read lookUp
  cases tree.locate path with
  | error cause => simp
  | ok location =>
      cases hnode : tree.node? location with
      | none => simp [hnode]
      | some node => cases node <;> simp [hnode]

theorem Grows.read (hgrows : tree.Grows later) (h : tree.read path = .ok contents) :
    later.read path = .ok contents := by
  obtain ⟨location, hlocate, hnode⟩ := read_eq_ok_iff.mp h
  exact read_eq_ok_iff.mpr ⟨location, hgrows.keepsDirectories.locate hlocate,
    hgrows.node _ _ hnode⟩

/-! ## Finding regular files -/

variable {cause : FileError}

theorem eq_of_follow_eq_error (h : tree.follow location names = .error cause) :
    cause = .notFound ∨ cause = .notDirectory ∨ cause = .nameTooLong := by
  induction names generalizing location with
  | nil => cases h
  | cons name rest ih =>
      rw [follow] at h
      split at h
      · exact .inl (Except.error.inj h).symm
      · exact .inr (.inl (Except.error.inj h).symm)
      · by_cases hup : name == ".."
        · rw [if_pos hup] at h
          exact ih h
        · rw [if_neg hup] at h
          by_cases hlong : nameLimit < Text.nameSize name
          · rw [if_pos hlong] at h
            exact .inr (.inr (Except.error.inj h).symm)
          · rw [if_neg hlong] at h
            exact ih h

theorem eq_of_unfit?_eq_some (h : unfit? path = some cause) :
    cause = .embeddedNull ∨ (∃ problem, cause = .unencodable problem) ∨ cause = .nameTooLong := by
  unfold unfit? at h
  cases hname : Text.unnameable? path.toText with
  | some problem =>
      simp only [hname, Option.some.injEq] at h
      exact .inr (.inl ⟨problem, h.symm⟩)
  | none =>
      simp only [hname] at h
      split at h
      · exact .inl (Option.some.inj h).symm
      · split at h
        · exact .inr (.inr (Option.some.inj h).symm)
        · cases h

theorem eq_of_locate_eq_error (h : tree.locate path = .error cause) :
    cause = .notFound ∨ cause = .notDirectory ∨ cause = .embeddedNull ∨
      (∃ problem, cause = .unencodable problem) ∨ cause = .nameTooLong := by
  rw [locate] at h
  cases hunfit : unfit? path with
  | some other =>
      rw [hunfit] at h
      obtain rfl := Except.error.inj h
      exact .inr (.inr (eq_of_unfit?_eq_some hunfit))
  | none =>
      rw [hunfit] at h
      rcases eq_of_follow_eq_error h with rfl | rfl | rfl
      · exact .inl rfl
      · exact .inr (.inl rfl)
      · exact .inr (.inr (.inr (.inr rfl)))

/-- What a path leads to stays open only where a name or the path is too long. -/
theorem eq_nameTooLong_of_leadsTo {kind : Node → Bool} (h : tree.leadsTo kind path = .error cause) :
    cause = .nameTooLong := by
  unfold leadsTo lookUp at h
  cases hlocate : tree.locate path with
  | ok location =>
      cases hnode : tree.node? location <;> simp [hlocate, hnode, answered, Except.map] at h
  | error other =>
      -- All other failures count as there being nothing of that kind.
      rcases eq_of_locate_eq_error hlocate with rfl | rfl | rfl | ⟨problem, rfl⟩ | rfl
      · simp [hlocate, answered, Except.map] at h
      · simp [hlocate, answered, Except.map] at h
      · simp [hlocate, answered, Except.map] at h
      · simp [hlocate, answered, Except.map] at h
      · simpa [hlocate, answered, Except.map] using h.symm

theorem eq_nameTooLong_of_isFile (h : tree.isFile path = .error cause) : cause = .nameTooLong :=
  eq_nameTooLong_of_leadsTo h

theorem leadsTo_eq_true_iff {kind : Node → Bool} : tree.leadsTo kind path = .ok true ↔
    ∃ node, tree.lookUp path = .ok node ∧ kind node = true := by
  unfold leadsTo
  cases tree.lookUp path with
  | error cause => cases cause <;> simp [answered, Except.map]
  | ok node => simp [answered, Except.map]

theorem exists_read_of_isFile (h : tree.isFile path = .ok true) :
    ∃ bytes, tree.read path = .ok bytes := by
  obtain ⟨node, hlookUp, hfile⟩ := leadsTo_eq_true_iff.mp h
  cases node with
  | file contents => exact ⟨contents, by rw [read, hlookUp]⟩
  | directory => cases hfile

theorem isFile_of_read (h : tree.read path = .ok contents) : tree.isFile path = .ok true := by
  obtain ⟨location, hlocate, hnode⟩ := read_eq_ok_iff.mp h
  exact leadsTo_eq_true_iff.mpr ⟨.file contents, by simp [lookUp, hlocate, hnode], rfl⟩

theorem exists_locate_of_doesExist (h : tree.doesExist path = .ok true) :
    ∃ location, tree.locate path = .ok location ∧ tree.node? location ≠ none := by
  obtain ⟨node, hlookUp, -⟩ := leadsTo_eq_true_iff.mp h
  unfold lookUp at hlookUp
  cases hlocate : tree.locate path with
  | error cause => simp [hlocate] at hlookUp
  | ok location =>
      refine ⟨location, rfl, fun hnone => ?_⟩
      simp [hlocate, hnone] at hlookUp

theorem doesExist_of_locate (h : tree.locate path = .ok location) :
    tree.doesExist path = .ok (tree.node? location).isSome := by
  cases hnode : tree.node? location <;>
    simp [doesExist, leadsTo, lookUp, h, hnode, answered, Except.map]

/-! ## Making directories -/

/-- A directory is added where nothing was. -/
def AddsDirectory (tree later : FileTree) : Prop :=
  ∃ location, tree.node? location = none ∧ later = tree.put location .directory

open Relation (ReflTransGen)

theorem addsDirectory_makeDirectory (h : tree.makeDirectory path = .ok made) :
    tree.AddsDirectory made := by
  unfold makeDirectory at h
  split at h
  · simp at h
  · split at h
    · simp at h
    · rename_i hnone
      exact ⟨_, hnone, (Except.ok.inj h).symm⟩

theorem addsDirectories_ensureDirectory (h : tree.ensureDirectory path = .ok made) :
    ReflTransGen AddsDirectory tree made := by
  unfold ensureDirectory at h
  split at h
  · rename_i hmade
    obtain rfl := Except.ok.inj h
    exact .single (addsDirectory_makeDirectory hmade)
  · simp at h
  · split at h
    · obtain rfl := Except.ok.inj h
      exact .refl
    · simp at h

/-- Also a way that is not made to its end has only added directories. -/
theorem addsDirectories_ensureWay (anchor : String) (segments : List String) (tree : FileTree) :
    ReflTransGen AddsDirectory tree (ensureWay anchor segments tree).2 := by
  induction segments generalizing tree with
  | nil => exact .refl
  | cons segment before ih =>
      -- What is made before the last part fails has been made nevertheless.
      have hbefore := ih tree
      simp only [ensureWay]
      split
      · rename_i hmade
        exact addsDirectories_ensureDirectory hmade
      · split
        · rename_i hway
          rwa [hway] at hbefore
        · rename_i hway
          rw [hway] at hbefore
          split
          · rename_i hmade
            exact hbefore.trans (addsDirectories_ensureDirectory hmade)
          · exact hbefore
      · exact .refl

theorem addsDirectories_makeDirectories (tree : FileTree) (path : Path) :
    ReflTransGen AddsDirectory tree (tree.makeDirectories path).2 :=
  addsDirectories_ensureWay _ _ _

theorem AddsDirectory.root_ne (hnone : tree.node? location = none) : location ≠ [] := by
  rintro rfl
  simp [node?_root] at hnone

theorem AddsDirectory.grows (hadds : tree.AddsDirectory later) : tree.Grows later := by
  obtain ⟨location, hnone, rfl⟩ := hadds
  refine ⟨rfl, fun other node hnode => ?_⟩
  rw [node?_put (AddsDirectory.root_ne hnone), if_neg]
  · exact hnode
  · rintro rfl
    simp [hnone] at hnode

theorem grows_makeDirectories (tree : FileTree) (path : Path) :
    tree.Grows (tree.makeDirectories path).2 := by
  have hadds := tree.addsDirectories_makeDirectories path
  generalize (tree.makeDirectories path).2 = made at hadds
  induction hadds with
  | refl => exact .refl tree
  | tail _ hadds ih => exact ih.trans hadds.grows

theorem makeDirectories_of_isDirectory (h : tree.isDirectory path = true) :
    tree.makeDirectories path = (none, tree) := by
  have hmade : tree.makeDirectory path = .error .alreadyExists := by
    unfold isDirectory lookUp at h
    unfold makeDirectory
    cases hlocate : tree.locate path with
    | error cause => simp [hlocate] at h
    | ok location => cases hnode : tree.node? location <;> simp_all
  have hensure : tree.ensureDirectory path = .ok tree := by simp [ensureDirectory, hmade, h]
  obtain ⟨anchor, segments⟩ := path
  rw [makeDirectories]
  -- The way is made from its end, and that is there.
  cases hreverse : segments.reverse with
  | nil => rfl
  | cons segment before =>
      obtain rfl : segments = (segment :: before).reverse := by simp [← hreverse]
      simp only [ensureWay, hensure]

/-! ## Writing -/

theorem exists_write_of_locate (h : tree.locate path = .ok location)
    (hnode : tree.node? location ≠ some .directory) (contents : ByteArray) :
    ∃ written, tree.write path contents = .ok written := by
  refine ⟨tree.put location (.file contents), ?_⟩
  simp only [write, h]

/-- Writing takes the place of what is there. -/
theorem write_ne_alreadyExists : tree.write path contents ≠ .error .alreadyExists := by
  unfold write
  cases hlocate : tree.locate path with
  | error cause =>
      intro h
      obtain rfl := Except.error.inj h
      have hcause := eq_of_locate_eq_error hlocate
      simp at hcause
  | ok location =>
      cases hnode : tree.node? location with
      | none => simp [hnode]
      | some node => cases node <;> simp [hnode]

theorem exists_of_write (h : tree.write path contents = .ok written) :
    ∃ location, tree.locate path = .ok location ∧ location ≠ [] ∧
      tree.node? location ≠ some .directory ∧ written = tree.put location (.file contents) := by
  unfold write at h
  split at h
  · simp at h
  · rename_i location hlocate
    split at h
    · simp at h
    · rename_i hnode
      refine ⟨location, hlocate, ?_, hnode, (Except.ok.inj h).symm⟩
      rintro rfl
      exact hnode node?_root

theorem keepsDirectories_write (h : tree.write path contents = .ok written) :
    tree.KeepsDirectories written := by
  obtain ⟨location, -, hroot, hnode, rfl⟩ := exists_of_write h
  refine ⟨rfl, fun other hother => ?_⟩
  rw [node?_put hroot, if_neg]
  · exact hother
  · rintro rfl
    exact hnode hother

theorem read_write (h : tree.write path contents = .ok written) :
    written.read path = .ok contents := by
  have hkeeps := keepsDirectories_write h
  obtain ⟨location, hlocate, hroot, -, rfl⟩ := exists_of_write h
  refine read_eq_ok_iff.mpr ⟨location, hkeeps.locate hlocate, ?_⟩
  rw [node?_put hroot, if_pos rfl]

/-- Writing under one plain path below a directory leaves a file under another one. -/
theorem read_of_write_append {directory : Path} {more : List String} {text : ByteArray}
    (h : tree.write (directory.append names) text = .ok written)
    (hnames : ∀ name ∈ names, name ≠ "..") (hmore : ∀ name ∈ more, name ≠ "..")
    (hother : more ≠ names) (hread : tree.read (directory.append more) = .ok contents) :
    written.read (directory.append more) = .ok contents := by
  have hkeeps := keepsDirectories_write h
  obtain ⟨location, hlocate, hroot, -, rfl⟩ := exists_of_write h
  obtain ⟨elsewhere, helsewhere, hnode⟩ := read_eq_ok_iff.mp hread
  refine read_eq_ok_iff.mpr ⟨elsewhere, hkeeps.locate helsewhere, ?_⟩
  rw [node?_put hroot, if_neg]
  · exact hnode
  · rintro rfl
    exact hother (locate_append_inj hmore hnames helsewhere hlocate)

/-! ## Regular files -/

/-- The contents of the regular file at a location, if there is one. -/
def contents? (tree : FileTree) (location : Location) : Option ByteArray :=
  match tree.node? location with
  | some (.file contents) => some contents
  | _ => none

theorem contents?_eq_some_iff :
    tree.contents? location = some contents ↔ tree.node? location = some (.file contents) := by
  unfold contents?
  cases tree.node? location with
  | none => simp
  | some node => cases node <;> simp

theorem read_eq_ok_iff_contents? : tree.read path = .ok contents ↔
    ∃ location, tree.locate path = .ok location ∧ tree.contents? location = some contents := by
  simp only [read_eq_ok_iff, contents?_eq_some_iff]

theorem AddsDirectory.contents?_eq (hadds : tree.AddsDirectory later) :
    later.contents? = tree.contents? := by
  obtain ⟨location, hnone, rfl⟩ := hadds
  funext other
  rw [contents?, node?_put (AddsDirectory.root_ne hnone)]
  by_cases hother : other = location
  · rw [if_pos hother, hother, contents?, hnone]
  · rw [if_neg hother, contents?]

theorem contents?_makeDirectories (tree : FileTree) (path : Path) :
    (tree.makeDirectories path).2.contents? = tree.contents? := by
  have hadds := tree.addsDirectories_makeDirectories path
  generalize (tree.makeDirectories path).2 = made at hadds ⊢
  induction hadds with
  | refl => rfl
  | tail _ hadds ih => exact hadds.contents?_eq.trans ih

/-- Writing changes the regular file at one location. -/
theorem exists_contents?_of_write (h : tree.write path contents = .ok written) :
    ∃ location, written.locate path = .ok location ∧
      written.contents? = Function.update tree.contents? location (some contents) := by
  have hkeeps := keepsDirectories_write h
  obtain ⟨location, hlocate, hroot, -, rfl⟩ := exists_of_write h
  refine ⟨location, hkeeps.locate hlocate, ?_⟩
  funext other
  rw [contents?, node?_put hroot, Function.update_apply]
  by_cases hother : other = location
  · rw [if_pos hother, if_pos hother]
  · rw [if_neg hother, if_neg hother, contents?]

end ServiceManual.FileTree
