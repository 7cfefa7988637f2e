import ServiceManual.Proofs.Files.Plan
import ServiceManual.Proofs.Manual.Saving

/-!
# What saving writes

Saving goes through the pages in order.  For each of them the directories on the way are made and
the file is written (`Manual.Writes`), unless the system stops that (`Manual.StopsAt`) or the text
has no encoding.  These are the ways in which saving can go for the first of some pages
(`Manual.save_cons_cases`).

A page that is written changes one regular file, and directories change none.  So pages that are
all written change the regular files by their contents, one after the other, at the locations to
which their paths lead (`Manual.overwritten_of_ok`).  Where the system stops a page, these are the
pages before it (`Manual.exists_of_save_stopped`).
-/

namespace ServiceManual.Manual

variable {directory path : Path} {page : Page} {pages rest : List Page}
  {tree written final : FileTree} {paths : List Path} {cause : FileError}

/-! ## One page -/

/-- The tree with the directories on the way to a page, as far as they can be made. -/
def madeFor (directory : Path) (page : Page) (tree : FileTree) : FileTree :=
  (tree.makeDirectories (directory.append page.path).parent).2

/-- A page is written. -/
structure Writes (directory : Path) (page : Page) (tree written : FileTree) : Prop where
  encodable : Text.unencodable? page.contents = none
  made : (tree.makeDirectories (directory.append page.path).parent).1 = none
  write : (madeFor directory page tree).write (directory.append page.path)
    page.contents.toUTF8 = .ok written

/-- The system stops a page from being written: a directory on the way cannot be made, or the file
cannot be written. -/
inductive StopsAt (directory : Path) (page : Page) (tree : FileTree) : Path → FileError → Prop
  | way {path : Path} {cause : FileError}
      (hmade : (tree.makeDirectories (directory.append page.path).parent).1 = some (path, cause)) :
      StopsAt directory page tree path cause
  | file {cause : FileError}
      (hmade : (tree.makeDirectories (directory.append page.path).parent).1 = none)
      (hwrite : (madeFor directory page tree).write (directory.append page.path)
        (encoded page.contents).1 = .error cause) :
      StopsAt directory page tree (directory.append page.path) cause

theorem Writes.effect_save (hwrites : Writes directory page tree written) (rest : List Page) :
    (save directory (page :: rest)).effect tree =
      { (save directory rest).effect written with
        result := ((save directory rest).effect written).result.map
          (directory.append page.path :: ·) } := by
  obtain ⟨hencodable, hmade, hwrite⟩ := hwrites
  have hencoded : encoded page.contents = (page.contents.toUTF8, none) := by
    rw [encoded, hencodable]
  rw [madeFor] at hwrite
  simp only [Plan.effect, run_save_cons]
  generalize tree.makeDirectories (directory.append page.path).parent = making at hmade hwrite
  obtain ⟨stop, made⟩ := making
  obtain rfl : stop = none := hmade
  simp only [hencoded, hwrite]
  rfl

/-- How saving goes for the first of some pages: the page is written and the others follow, or the
system stops it, or its text has no encoding. -/
theorem save_cons_cases (directory : Path) (page : Page) (rest : List Page) (tree : FileTree) :
    (∃ written, Writes directory page tree written ∧
        (save directory (page :: rest)).effect tree =
          { (save directory rest).effect written with
            result := ((save directory rest).effect written).result.map
              (directory.append page.path :: ·) }) ∨
      (∃ path cause, StopsAt directory page tree path cause ∧
        (save directory (page :: rest)).effect tree =
          ⟨.error (.file path cause), [], madeFor directory page tree⟩) ∨
      ∃ problem left, (save directory (page :: rest)).effect tree =
        ⟨.error (.unencodable problem), [], left⟩ := by
  cases hmaking : tree.makeDirectories (directory.append page.path).parent with
  | mk stop made =>
      have hmade : madeFor directory page tree = made := congrArg Prod.snd hmaking
      cases stop with
      | some stop =>
          refine .inr (.inl ⟨stop.1, stop.2, .way (congrArg Prod.fst hmaking), ?_⟩)
          simp only [Plan.effect, run_save_cons, hmaking, hmade, printed_nil]
      | none =>
          -- The way is made; a file is there before the encoding can fail.
          have hway := congrArg Prod.fst hmaking
          cases hwrite : made.write (directory.append page.path) (encoded page.contents).1 with
          | error cause =>
              refine .inr (.inl ⟨directory.append page.path, cause, .file hway ?_, ?_⟩)
              · rw [hmade, hwrite]
              · simp only [Plan.effect, run_save_cons, hmaking, hwrite, hmade, printed_nil]
          | ok written =>
              cases hproblem : Text.unencodable? page.contents with
              | some problem =>
                  refine .inr (.inr ⟨problem, written, ?_⟩)
                  have hencoded : (encoded page.contents).2 = some (.unencodable problem) := by
                    rw [encoded, hproblem]
                  simp only [Plan.effect, run_save_cons, hmaking, hwrite, hencoded, printed_nil]
              | none =>
                  have hencoded : encoded page.contents = (page.contents.toUTF8, none) := by
                    rw [encoded, hproblem]
                  rw [hencoded] at hwrite
                  have hwrites : Writes directory page tree written :=
                    ⟨hproblem, hway, by rw [hmade, hwrite]⟩
                  exact .inl ⟨written, hwrites, hwrites.effect_save rest⟩

/-! ## Several pages -/

/-- The location of a page in a tree. -/
def place (tree : FileTree) (directory : Path) (page : Page) : Location :=
  match tree.locate (directory.append page.path) with
  | .ok location => location
  | .error _ => []

/-- Pages written over regular files, one after the other, at these places. -/
def overwrite (place : Page → Location) (files : Location → Option ByteArray)
    (pages : List Page) : Location → Option ByteArray :=
  pages.foldl (fun files page =>
    Function.update files (place page) (some page.contents.toUTF8)) files

/-- The regular files of a tree are those of another one with pages written over them in order, at
the locations to which their paths lead. -/
structure Overwritten (directory : Path) (pages : List Page) (tree final : FileTree) : Prop where
  keeps : tree.KeepsDirectories final
  located : ∀ page ∈ pages,
    final.locate (directory.append page.path) = .ok (place final directory page)
  files : final.contents? = overwrite (place final directory) tree.contents? pages

theorem overwrite_congr {place other : Page → Location} {files : Location → Option ByteArray}
    (hplace : ∀ page ∈ pages, place page = other page) :
    overwrite place files pages = overwrite other files pages := by
  refine List.foldl_ext _ _ _ fun files page hpage => ?_
  rw [hplace page hpage]

theorem overwrite_of_forall_ne {place : Page → Location} {files : Location → Option ByteArray}
    {location : Location} (hother : ∀ page ∈ pages, place page ≠ location) :
    overwrite place files pages location = files location := by
  induction pages generalizing files with
  | nil => rfl
  | cons page rest ih =>
      rw [List.forall_mem_cons] at hother
      let next := Function.update files (place page) (some page.contents.toUTF8)
      calc overwrite place files (page :: rest) location
          = overwrite place next rest location := rfl
        _ = next location := ih hother.2
        _ = files location := Function.update_of_ne hother.1.symm _ _

/-- Nothing is changed where no page leads. -/
theorem Overwritten.contents?_eq (hover : Overwritten directory pages tree final)
    {location : Location}
    (hother : ∀ page ∈ pages, final.locate (directory.append page.path) ≠ .ok location) :
    final.contents? location = tree.contents? location := by
  rw [hover.files]
  refine overwrite_of_forall_ne fun page hpage hplace => hother page hpage ?_
  rw [hover.located page hpage, hplace]

theorem Writes.overwritten (hwrites : Writes directory page tree written)
    (hrest : Overwritten directory rest written final) :
    Overwritten directory (page :: rest) tree final := by
  have hmade : tree.Grows (madeFor directory page tree) := tree.grows_makeDirectories _
  have hfiles : (madeFor directory page tree).contents? = tree.contents? :=
    tree.contents?_makeDirectories _
  obtain ⟨location, hlocate, hupdate⟩ := FileTree.exists_contents?_of_write hwrites.write
  -- The path leads to the same location when the other pages have been written.
  have hfinal : final.locate (directory.append page.path) = .ok location :=
    hrest.keeps.locate hlocate
  have hplace : place final directory page = location := by
    rw [place, hfinal]
  refine ⟨?_, List.forall_mem_cons.mpr ⟨?_, hrest.located⟩, ?_⟩
  · exact (hmade.keepsDirectories.trans (FileTree.keepsDirectories_write hwrites.write)).trans
      hrest.keeps
  · rw [hfinal, hplace]
  · rw [hrest.files, hupdate, hfiles, ← hplace]
    rfl

/-- Pages that have been written stay written when directories are made. -/
theorem Overwritten.madeFor (hover : Overwritten directory pages tree final) (page : Page) :
    Overwritten directory pages tree (madeFor directory page final) := by
  have hkeeps : final.KeepsDirectories (Manual.madeFor directory page final) :=
    (final.grows_makeDirectories _).keepsDirectories
  have hlocated : ∀ other ∈ pages,
      (Manual.madeFor directory page final).locate (directory.append other.path) =
        .ok (place final directory other) :=
    fun other hother => hkeeps.locate (hover.located other hother)
  have hplace : ∀ other ∈ pages, place final directory other =
      place (Manual.madeFor directory page final) directory other := by
    intro other hother
    rw [place.eq_def (Manual.madeFor directory page final), hlocated other hother]
  refine ⟨hover.keeps.trans hkeeps, fun other hother => ?_, ?_⟩
  · rw [hlocated other hother, hplace other hother]
  · rw [Manual.madeFor, final.contents?_makeDirectories, hover.files]
    exact overwrite_congr hplace

theorem overwritten_of_save_ok {lines : List String}
    (hsaved : (save directory pages).effect tree = ⟨.ok paths, lines, final⟩) :
    Overwritten directory pages tree final ∧ lines = [] := by
  induction pages generalizing tree paths with
  | nil =>
      cases hsaved
      exact ⟨⟨.refl tree, nofun, rfl⟩, rfl⟩
  | cons page rest ih =>
      rcases save_cons_cases directory page rest tree with
        ⟨written, hwrites, heffect⟩ | ⟨path, cause, -, heffect⟩ | ⟨problem, left, heffect⟩
      · cases hrest : (save directory rest).effect written with
        | mk result more left =>
            rw [hrest, hsaved] at heffect
            cases result with
            | error escape => cases heffect
            | ok later =>
                cases heffect
                obtain ⟨hover, hnothing⟩ := ih hrest
                exact ⟨hwrites.overwritten hover, hnothing⟩
      -- Otherwise saving does not end with paths.
      · rw [hsaved] at heffect
        cases heffect
      · rw [hsaved] at heffect
        cases heffect

/-- Where the system stops a page, the pages before it are saved, and of the page itself there are
at most directories. -/
theorem exists_of_save_stopped {lines : List String}
    (hstopped : (save directory pages).effect tree = ⟨.error (.file path cause), lines, final⟩) :
    ∃ before page after paths middle, pages = before ++ page :: after ∧
      (save directory before).effect tree = ⟨.ok paths, [], middle⟩ ∧
      StopsAt directory page middle path cause ∧ final = madeFor directory page middle := by
  induction pages generalizing tree with
  | nil => cases hstopped
  | cons page rest ih =>
      rcases save_cons_cases directory page rest tree with
        ⟨written, hwrites, heffect⟩ | ⟨path, cause, hstops, heffect⟩ | ⟨problem, left, heffect⟩
      · cases hrest : (save directory rest).effect written with
        | mk result more left =>
            rw [hrest, hstopped] at heffect
            cases result with
            | ok later => cases heffect
            | error escape =>
                cases heffect
                obtain ⟨before, stopped, after, paths, middle, rfl, hbefore, hstops, hfinal⟩ :=
                  ih hrest
                -- It is a later page that is stopped, so this one is saved with those before that.
                have hfirst := hwrites.effect_save before
                rw [hbefore] at hfirst
                exact ⟨page :: before, stopped, after, _, middle, rfl, hfirst, hstops, hfinal⟩
      · rw [hstopped] at heffect
        cases heffect
        exact ⟨[], page, rest, [], tree, rfl, rfl, hstops, rfl⟩
      · rw [hstopped] at heffect
        cases heffect

end ServiceManual.Manual
