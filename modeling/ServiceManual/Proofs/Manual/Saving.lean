import ServiceManual.Loading
import ServiceManual.Proofs.Files.Tree
import ServiceManual.Proofs.Words

/-!
# What saving leaves

Pages are written one after the other, so of several pages with one path the last one stays.  When
saving succeeds, every path of a page leads to a file with the contents of the last page that has
it (`Manual.saved_of_ok`), and no page is lost if all paths are different.

Different interfaces need not have different paths: of the interface's name the document's name
keeps the words and not their case.  A service with the interfaces `pet` and `Pet` loses a page
(`Manual.pages_pet_Pet_not_nodup`).  What is kept of a name in any case are its letters and digits,
so no page is lost if these differ (`Manual.save_keeps_pages`).
-/

namespace ServiceManual.Manual

/-! ## Saving pages -/

section Saving

variable {directory : Path} {page last : Page} {pages rest : List Page} {tree : FileTree}
  {paths : List Path}

/-- The last of some pages that has a path. -/
def IsLastAt (pages : List Page) (path : List String) (last : Page) : Prop :=
  ∃ before after, pages = before ++ last :: after ∧ last.path = path ∧
    path ∉ after.map Page.path

theorem IsLastAt.cons {path : List String} (hlast : IsLastAt rest path last) :
    IsLastAt (page :: rest) path last := by
  obtain ⟨before, after, rfl, hpath, hafter⟩ := hlast
  exact ⟨page :: before, after, rfl, hpath, hafter⟩

theorem isLastAt_cons_self (hnew : page.path ∉ rest.map Page.path) :
    IsLastAt (page :: rest) page.path page :=
  ⟨[], rest, rfl, rfl, hnew⟩

/-- Where all paths are different, every page is the last one at its path. -/
theorem IsLastAt.eq_of_nodup (hnodup : (pages.map Page.path).Nodup) (hpage : page ∈ pages)
    (hlast : IsLastAt pages page.path last) : last = page := by
  obtain ⟨before, after, rfl, hpath, -⟩ := hlast
  exact List.inj_on_of_nodup_map hnodup (by simp) hpage hpath

/-- The note on a page that has been written. -/
def writtenNote (path : Path) : Utterance :=
  .note .info "svcdocs.io.writer" ("Wrote " ++ path.toText) ""

theorem run_save_cons (directory : Path) (page : Page) (rest : List Page) (tree : FileTree) :
    (save directory (page :: rest)).run tree =
      let path := directory.append page.path
      match tree.makeDirectories path.parent with
      | (some (stopped, cause), made) => ⟨.error (.file stopped cause), [], made⟩
      | (none, made) =>
        match made.write path (encoded page.contents).1, (encoded page.contents).2 with
        | .error cause, _ => ⟨.error (.file path cause), [], made⟩
        | .ok written, some escape => ⟨.error escape, [], written⟩
        | .ok written, none =>
          let more := (save directory rest).run written
          ⟨more.result.map (path :: ·), writtenNote path :: more.said, more.tree⟩ := by
  simp only [save, Plan.bind_eq, Plan.pure_eq, Plan.ensureDirectories, Plan.setContents,
    Plan.note, Plan.bind, Plan.run]
  -- The way to the page decides first, then the writing, then the encoding.
  generalize tree.makeDirectories (directory.append page.path).parent = making
  obtain ⟨_ | ⟨stopped, cause⟩, made⟩ := making
  · simp only [Plan.run]
    cases made.write (directory.append page.path) (encoded page.contents).1 with
    | error cause => rfl
    | ok written =>
        cases (encoded page.contents).2 with
        | some escape => rfl
        | none =>
            simp only [Plan.run, Plan.run_bind]
            cases ((save directory rest).run written).result with
            | error escape => simp [Except.map, writtenNote]
            | ok more => simp [Except.map, writtenNote]
  · rfl

/-- What it takes for the first page to be saved, and with what saving goes on. -/
theorem exists_of_save_cons
    (hsaved : ((save directory (page :: rest)).run tree).result = .ok paths) :
    ∃ written more, (tree.makeDirectories (directory.append page.path).parent).2.write
        (directory.append page.path) page.contents.toUTF8 = .ok written ∧
      ((save directory rest).run written).result = .ok more ∧
      paths = directory.append page.path :: more ∧
      ((save directory (page :: rest)).run tree).tree =
        ((save directory rest).run written).tree := by
  simp only [run_save_cons] at hsaved ⊢
  generalize tree.makeDirectories (directory.append page.path).parent = making at hsaved ⊢
  obtain ⟨_ | ⟨stopped, cause⟩, made⟩ := making
  · cases hproblem : Text.unencodable? page.contents with
    -- A page without encoding would have stopped the saving.
    | some problem =>
        simp only [encoded, hproblem] at hsaved
        cases hwrite : made.write (directory.append page.path) ByteArray.empty with
        | error cause => simp only [hwrite, reduceCtorEq] at hsaved
        | ok written => simp only [hwrite, reduceCtorEq] at hsaved
    | none =>
        simp only [encoded, hproblem] at hsaved ⊢
        cases hwrite : made.write (directory.append page.path) page.contents.toUTF8 with
        | error cause => simp only [hwrite, reduceCtorEq] at hsaved
        | ok written =>
            simp only [hwrite] at hsaved ⊢
            cases hrest : ((save directory rest).run written).result with
            | error escape => simp [hrest, Except.map] at hsaved
            | ok more =>
                rw [hrest] at hsaved
                exact ⟨written, more, rfl, hrest, (Except.ok.inj hsaved).symm, rfl⟩
  · simp at hsaved

/-- A path of names that are no double dots. -/
def IsPlain (path : List String) : Prop :=
  ∀ name ∈ path, name ≠ ".."

/-- What a successful saving of pages makes of a file tree. -/
structure Saved (directory : Path) (pages : List Page) (tree final : FileTree) : Prop where
  keeps : tree.KeepsDirectories final
  others : ∀ path contents, IsPlain path → path ∉ pages.map Page.path →
    tree.read (directory.append path) = .ok contents →
      final.read (directory.append path) = .ok contents
  lasts : ∀ page ∈ pages, ∃ last, IsLastAt pages page.path last ∧
    final.read (directory.append page.path) = .ok last.contents.toUTF8

/-- Saving leaves the last page at every path, and other files as they were. -/
theorem saved_of_ok (hplain : ∀ page ∈ pages, IsPlain page.path)
    (hsaved : ((save directory pages).run tree).result = .ok paths) :
    Saved directory pages tree ((save directory pages).run tree).tree ∧
      paths = pages.map fun page => directory.append page.path := by
  induction pages generalizing tree paths with
  | nil =>
      obtain rfl : [] = paths := Except.ok.inj hsaved
      exact ⟨⟨.refl tree, fun _ _ _ _ h => h, by simp⟩, rfl⟩
  | cons page rest ih =>
      obtain ⟨written, more, hwrite, hrest, rfl, hfinal⟩ := exists_of_save_cons hsaved
      obtain ⟨hafter, rfl⟩ := ih (fun page h => hplain page (List.mem_cons_of_mem _ h)) hrest
      have hpage : IsPlain page.path := hplain page List.mem_cons_self
      have hgrows := tree.grows_makeDirectories (directory.append page.path).parent
      rw [hfinal]
      refine ⟨⟨?_, ?_, ?_⟩, rfl⟩
      · exact (hgrows.keepsDirectories.trans (FileTree.keepsDirectories_write hwrite)).trans
          hafter.keeps
      · intro path contents hpath hnew hread
        rw [List.map_cons, List.mem_cons, not_or] at hnew
        exact hafter.others path contents hpath hnew.2
          (FileTree.read_of_write_append hwrite hpage hpath hnew.1 (hgrows.read hread))
      · intro other hother
        by_cases hlater : other.path ∈ rest.map Page.path
        · obtain ⟨same, hsame, hpath⟩ := List.mem_map.mp hlater
          obtain ⟨last, hlast, hread⟩ := hafter.lasts same hsame
          rw [hpath] at hlast hread
          exact ⟨last, hlast.cons, hread⟩
        · -- A page whose path does not come again is the first one, and its file is left alone.
          have hfirst : other = page := by
            rcases List.mem_cons.mp hother with h | h
            · exact h
            · exact absurd (List.mem_map_of_mem h) hlater
          subst hfirst
          exact ⟨other, isLastAt_cons_self hlater,
            hafter.others _ _ hpage hlater (FileTree.read_write hwrite)⟩

variable {final : FileTree}

theorem Saved.read_of_nodup (hsaved : Saved directory pages tree final)
    (hnodup : (pages.map Page.path).Nodup) (hpage : page ∈ pages) :
    final.read (directory.append page.path) = .ok page.contents.toUTF8 := by
  obtain ⟨last, hlast, hread⟩ := hsaved.lasts page hpage
  rwa [hlast.eq_of_nodup hnodup hpage] at hread

theorem Saved.nodup_locations (hsaved : Saved directory pages tree final)
    (hplain : ∀ page ∈ pages, IsPlain page.path) (hnodup : (pages.map Page.path).Nodup) :
    (pages.map fun page => final.locate (directory.append page.path)).Nodup := by
  have hpairwise := hnodup
  rw [List.nodup_iff_pairwise_ne, List.pairwise_map] at hpairwise ⊢
  refine hpairwise.imp_of_mem fun hfirst hsecond hdifferent hlocation => hdifferent ?_
  -- Both pages can be read, so their paths lead somewhere.
  have hread := hsaved.read_of_nodup hnodup hfirst
  obtain ⟨location, hlocate, -⟩ := FileTree.read_eq_ok_iff.mp hread
  exact FileTree.locate_append_inj (hplain _ hfirst) (hplain _ hsecond) hlocate
    (hlocation.symm.trans hlocate)

end Saving

/-! ## Pages of interfaces -/

theorem isPlain_documentPath (interface : Interface) (version : Int) :
    IsPlain (interface.documentPath version) := by
  intro name hname
  simp only [Interface.documentPath, List.mem_cons, List.not_mem_nil, or_false] at hname
  rintro rfl
  rcases hname with h | h
  · have hfirst := congrArg String.toList h
    simp at hfirst
  · have hlast := congrArg (fun text => text.toList.getLast?) h
    simp at hlast

theorem bare_kebab_displayName (interface : Interface) :
    Words.bare (Naming.kebab interface.displayName).toList =
      Words.bare interface.name.toList ++ Words.bare " service".toList := by
  rw [Naming.kebab, String.toList_ofList, Words.bare_kebab, Interface.displayName, Naming.pascal,
    String.toList_ofList, Words.bare_pascal, String.toList_append, Words.bare_append]

theorem bare_eq_of_documentPath_eq {first second : Interface} {version : Int}
    (h : first.documentPath version = second.documentPath version) :
    Naming.bare first.name = Naming.bare second.name := by
  have hfile := (List.cons.inj (List.cons.inj h).2).1
  have hkebab : Naming.kebab first.displayName = Naming.kebab second.displayName := by
    simpa using hfile
  have hbare := congrArg (fun text => Words.bare text.toList) hkebab
  rw [bare_kebab_displayName, bare_kebab_displayName] at hbare
  rw [Naming.bare, Naming.bare, List.append_cancel_right hbare]

/-- Pages have different paths if the names of the interfaces have different letters and digits. -/
theorem nodup_paths (service : Service) (configuration : Configuration) (package : Package)
    (hnames : (service.interfaces.map fun interface => Naming.bare interface.name).Nodup) :
    ((pages service configuration package).map Page.path).Nodup := by
  rw [List.nodup_iff_pairwise_ne, List.pairwise_map] at hnames
  rw [List.nodup_iff_pairwise_ne, pages, List.map_map, List.pairwise_map]
  refine hnames.imp fun hdifferent hpath => ?_
  exact hdifferent (bare_eq_of_documentPath_eq hpath)

/-- **Names told apart by letters and digits keep all pages.**  If no two interfaces of a service
have names with the same letters and digits, up to case, then all pages have different paths.
Saving them successfully leaves one file for each page, at a location of its own and with the
contents of that page. -/
theorem save_keeps_pages (service : Service) (configuration : Configuration) (package : Package)
    (hnames : (service.interfaces.map fun interface => Naming.bare interface.name).Nodup) :
    ((pages service configuration package).map Page.path).Nodup ∧
      ∀ directory tree paths,
        ((save directory (pages service configuration package)).run tree).result = .ok paths →
        paths = (pages service configuration package).map
            (fun page => directory.append page.path) ∧
          (paths.map
            ((save directory (pages service configuration package)).run tree).tree.locate).Nodup ∧
          ∀ page ∈ pages service configuration package,
            ((save directory (pages service configuration package)).run tree).tree.read
              (directory.append page.path) = .ok page.contents.toUTF8 := by
  have hnodup := nodup_paths service configuration package hnames
  refine ⟨hnodup, fun directory tree paths hsaved => ?_⟩
  have hplain : ∀ page ∈ pages service configuration package, IsPlain page.path := by
    intro page hpage
    obtain ⟨interface, -, rfl⟩ := List.mem_map.mp hpage
    exact isPlain_documentPath interface _
  obtain ⟨hfinal, hpaths⟩ := saved_of_ok hplain hsaved
  refine ⟨hpaths, ?_, fun page hpage => hfinal.read_of_nodup hnodup hpage⟩
  rw [hpaths, List.map_map]
  exact hfinal.nodup_locations hplain hnodup

/-- A service with interfaces of these names, which have no methods. -/
def serviceOf (names : List String) : Service where
  title := "Shop"
  majorVersion := 1
  sourcePath := none
  interfaces := names.map fun name => ⟨name, ["All about " ++ name ++ "."], []⟩
  types := []
  enums := []
  unions := []

/-- Pages without banner. -/
def plainPages (names : List String) : List Page :=
  pages (serviceOf names) { banner := false } Package.default

/-- The pages on pets and on stores are both there after saving them where nothing was. -/
theorem pages_pet_store_kept :
    ((serviceOf ["pet", "store"]).interfaces.map
        fun interface => Naming.bare interface.name).Nodup ∧
      ((save ⟨"", ["docs"]⟩ (plainPages ["pet", "store"])).run ⟨[], []⟩).result =
        .ok [⟨"", ["docs", "v1", "pet-service.md"]⟩, ⟨"", ["docs", "v1", "store-service.md"]⟩] ∧
      ∀ page ∈ plainPages ["pet", "store"],
        ((save ⟨"", ["docs"]⟩ (plainPages ["pet", "store"])).run ⟨[], []⟩).tree.read
          ((⟨"", ["docs"]⟩ : Path).append page.path) = .ok page.contents.toUTF8 := by
  have hnames : ((serviceOf ["pet", "store"]).interfaces.map
      fun interface => Naming.bare interface.name).Nodup := by decide +kernel
  have hsaved : ((save ⟨"", ["docs"]⟩ (plainPages ["pet", "store"])).run ⟨[], []⟩).result =
      .ok [⟨"", ["docs", "v1", "pet-service.md"]⟩, ⟨"", ["docs", "v1", "store-service.md"]⟩] := by
    decide +kernel
  exact ⟨hnames, hsaved, ((save_keeps_pages _ _ _ hnames).2 _ _ _ hsaved).2.2⟩

/-- Interfaces with different names can share a document: of two pages one is lost. -/
theorem pages_pet_Pet_not_nodup :
    ((serviceOf ["pet", "Pet"]).interfaces.map Interface.name).Nodup ∧
      ¬ ((plainPages ["pet", "Pet"]).map Page.path).Nodup := by
  refine ⟨by decide, ?_⟩
  have hpaths : (plainPages ["pet", "Pet"]).map Page.path =
      [["v1", "pet-service.md"], ["v1", "pet-service.md"]] := by cbv
  rw [hpaths]
  decide

end ServiceManual.Manual
