import ServiceManual.Proofs.Configuration

/-!
# The starter file

A project that has no configuration can be given a file with the defaults, and one that has a
configuration can be given that file instead by force.  Writing it takes three steps: it is looked
whether anything is in its place, the way there is made, and the file is written.  Each of them can
fail, and what follows is then not tried (`StarterEnds`).

Before the last step no regular file is touched, and the last step writes the whole file or none
of it.  So a starter file that could not be written has changed no regular file, and one that was
written has changed only its own.  As its text reads back as the defaults, and as the file of a
project comes first in the search, the defaults apply from then on, whatever the user has set
elsewhere.  In a project directory nothing stops it but something to be kept, a directory in its
place, or a path that cannot be followed (`writeStarter_effect`).
-/

namespace ServiceManual.Configuration

variable {environment : Environment} {project : Option Path} {force : Bool}
  {tree left : FileTree} {path : Path} {bytes : ByteArray} {configuration : Configuration}
  {result : Except StarterError Path}

/-! ## The text of the file -/

/-- The configuration that bytes set, if they set one. -/
def setBy? (bytes : ByteArray) : Option Configuration :=
  match Yaml.valueOf (.ofWhole bytes) with
  | .error _ => none
  | .ok value =>
    match Configuration.read (settingsOf value) with
    | .valid configuration => some configuration
    | _ => none

theorem gives_of_setBy? (h : setBy? bytes = some configuration) : Gives bytes configuration := by
  unfold setBy? at h
  split at h
  · cases h
  · rename_i value hvalue
    split at h
    · rename_i hread
      obtain rfl := Option.some.inj h
      exact .taken hvalue hread
    · cases h

theorem gives_starterText : Gives starterText.toUTF8 {} :=
  gives_of_setBy? (by decide +kernel)

/-! ## How writing ends -/

/-- How writing the starter file under a path ends, and the tree that it leaves. -/
inductive StarterEnds (path : Path) (force : Bool) (tree : FileTree) :
    Except StarterError Path → FileTree → Prop
  /-- It stays open whether anything is there. -/
  | unsettled {cause : FileError} (hthere : tree.doesExist path = .error cause) :
      StarterEnds path force tree (.error (.file path cause)) tree
  /-- What is there is kept. -/
  | kept (hthere : tree.doesExist path = .ok true) (hforce : force = false) :
      StarterEnds path force tree (.error (.alreadyThere path)) tree
  /-- The way there is not made to its end. -/
  | stopped {there : Bool} {place : Path} {cause : FileError} {made : FileTree}
      (hthere : tree.doesExist path = .ok there) (hforce : there = true → force = true)
      (hway : tree.makeDirectories path.parent = (some (place, cause), made)) :
      StarterEnds path force tree (.error (.file place cause)) made
  /-- The way is made, but the file is not written. -/
  | unwritten {there : Bool} {cause : FileError} {made : FileTree}
      (hthere : tree.doesExist path = .ok there) (hforce : there = true → force = true)
      (hway : tree.makeDirectories path.parent = (none, made))
      (hwrite : made.write path starterText.toUTF8 = .error cause) :
      StarterEnds path force tree (.error (.file path cause)) made
  | written {there : Bool} {made written : FileTree}
      (hthere : tree.doesExist path = .ok there) (hforce : there = true → force = true)
      (hway : tree.makeDirectories path.parent = (none, made))
      (hwrite : made.write path starterText.toUTF8 = .ok written) :
      StarterEnds path force tree (.ok path) written

theorem starterEnds_run (environment : Environment) (project : Option Path) (force : Bool)
    (tree : FileTree) :
    StarterEnds (projectFile environment project) force tree
      ((writeStarter environment project force).run tree).result
      ((writeStarter environment project force).run tree).tree := by
  generalize hpath : projectFile environment project = path
  simp only [writeStarter, hpath, Plan.bind_eq, Plan.askExists, Plan.bind, Plan.run]
  cases hthere : tree.doesExist path with
  | error cause => exact .unsettled hthere
  | ok there =>
      cases hkept : there && !force with
      | true =>
          obtain ⟨rfl, hforce⟩ : there = true ∧ force = false := by simpa using hkept
          simp only [hkept, if_true, Plan.pure_eq, Plan.run]
          exact .kept hthere hforce
      | false =>
          have hforce : there = true → force = true := by
            rintro rfl
            simpa using hkept
          simp only [hkept, Bool.false_eq_true, if_false, Plan.ensureDirectories, Plan.bind,
            Plan.run]
          -- From here on nothing is to be kept, and the system decides.
          rcases hway : tree.makeDirectories path.parent with ⟨_ | ⟨place, cause⟩, made⟩
          · simp only [Plan.setContents, Plan.bind, Plan.run]
            cases hwrite : made.write path starterText.toUTF8 with
            | error cause => exact .unwritten hthere hforce hway hwrite
            | ok written => exact .written hthere hforce hway hwrite
          · exact .stopped hthere hforce hway

/-! ## What is left -/

theorem StarterEnds.contents?_of_error {error : StarterError}
    (h : StarterEnds path force tree (.error error) left) : left.contents? = tree.contents? := by
  cases h with
  | unsettled | kept => rfl
  | stopped _ _ hway | unwritten _ _ hway _ =>
      have hmade := tree.contents?_makeDirectories path.parent
      rwa [hway] at hmade

theorem StarterEnds.exists_contents?_of_ok {given : Path}
    (h : StarterEnds path force tree (.ok given) left) : given = path ∧
      left.read path = .ok starterText.toUTF8 ∧
      ∃ location, left.locate path = .ok location ∧
        left.contents? =
          Function.update tree.contents? location (some starterText.toUTF8) := by
  cases h with
  | written _ _ hway hwrite =>
      have hmade := tree.contents?_makeDirectories path.parent
      rw [hway] at hmade
      obtain ⟨location, hlocate, hcontents⟩ := FileTree.exists_contents?_of_write hwrite
      exact ⟨rfl, FileTree.read_write hwrite, location, hlocate, by rw [hcontents, hmade]⟩

/-- Where the file of the project is the starter file, the defaults apply. -/
theorem applies_starter (h : tree.read (projectFile environment project) = .ok starterText.toUTF8) :
    Applies tree (candidates environment project) {} :=
  .given ⟨[], _, rfl, nofun, FileTree.isFile_of_read h⟩ h gives_starterText

/-- In a project directory the starter file is written where nothing is to be kept and no directory
is in its place. -/
theorem StarterEnds.eq_ok_of_isDirectory {location : Location}
    (h : StarterEnds path force tree result left) (hparent : tree.isDirectory path.parent = true)
    (hlocate : tree.locate path = .ok location) (hnode : tree.node? location ≠ some .directory)
    (hfree : force = true ∨ tree.node? location = none) : result = .ok path := by
  have hexists := FileTree.doesExist_of_locate hlocate
  have hmade := FileTree.makeDirectories_of_isDirectory hparent
  cases h with
  | unsettled hthere => cases hthere.symm.trans hexists
  | kept hthere hforce =>
      rcases hfree with rfl | hnone
      · cases hforce
      · rw [hexists, hnone] at hthere
        cases hthere
  | stopped _ _ hway => cases hway.symm.trans hmade
  | unwritten _ _ hway hwrite =>
      obtain ⟨-, rfl⟩ := Prod.mk.inj (hway.symm.trans hmade)
      obtain ⟨written, hok⟩ :=
        FileTree.exists_write_of_locate hlocate hnode starterText.toUTF8
      cases hwrite.symm.trans hok
  | written => rfl

theorem parent_projectFile (environment : Environment) (project : Option Path) :
    (projectFile environment project).parent = projectDirectory environment project := by
  simp [projectFile, Path.append, Path.parent]

/-- **The starter file is written wholly or not at all.**  If it is written it is the only regular
file that has changed, and from then on the project has the defaults.  If anything goes wrong no
regular file has changed.  In a project directory it is written where its path can be followed,
unless something is to be kept or a directory is in its place. -/
theorem writeStarter_effect (environment : Environment) (project : Option Path) (force : Bool)
    (tree : FileTree) :
    let outcome := (writeStarter environment project force).run tree
    (∀ path, outcome.result = .ok path → path = projectFile environment project ∧
        (∃ location, outcome.tree.locate path = .ok location ∧
          outcome.tree.contents? =
            Function.update tree.contents? location (some starterText.toUTF8)) ∧
        ((load environment project).run outcome.tree).result = .ok {}) ∧
      (∀ error, outcome.result = .error error → outcome.tree.contents? = tree.contents?) ∧
      ∀ location, tree.isDirectory (projectDirectory environment project) = true →
        tree.locate (projectFile environment project) = .ok location →
        tree.node? location ≠ some .directory → force = true ∨ tree.node? location = none →
        outcome.result = .ok (projectFile environment project) := by
  intro outcome
  have hends : StarterEnds (projectFile environment project) force tree outcome.result
      outcome.tree := starterEnds_run environment project force tree
  refine ⟨fun path hresult => ?_, fun error hresult => ?_, fun location hdirectory => ?_⟩
  · rw [hresult] at hends
    obtain ⟨rfl, hread, hcontents⟩ := hends.exists_contents?_of_ok
    exact ⟨rfl, hcontents, (applies_starter hread).result_load⟩
  · rw [hresult] at hends
    exact hends.contents?_of_error
  · rw [← parent_projectFile] at hdirectory
    exact hends.eq_ok_of_isDirectory hdirectory

/-- The files of a user who has set another output directory, and of a project without a
configuration. -/
def settledTree : FileTree :=
  { nodes := [(["home"], .directory), (["home", ".svcdocs"], .directory),
      (["home", ".svcdocs", fileName], .file "output_dir: manual\n".toUTF8),
      (["shop"], .directory)]
    workingDirectory := ["shop"] }

/-- In a project without a configuration the starter file is written and takes the place of what the
user has set.  A broken configuration is kept, or is overwritten by force. -/
theorem starter_in_shop :
    ((load inProject none).run settledTree).result = .ok { outputDir := "manual" } ∧
      ((load inProject none).run ((writeStarter inProject none false).run settledTree).tree).result
        = .ok {} ∧
      ((writeStarter inProject none false).run (projectTree "output_dir: [")).tree.contents? =
        (projectTree "output_dir: [").contents? ∧
      ∃ location, ((writeStarter inProject none true).run
          (projectTree "output_dir: [")).tree.contents? =
        Function.update (projectTree "output_dir: [").contents? location
          (some starterText.toUTF8) := by
  have hwritten : ((writeStarter inProject none false).run settledTree).result =
      .ok (projectFile inProject none) :=
    (writeStarter_effect inProject none false settledTree).2.2 ["shop", fileName] (by rfl) (by rfl)
      nofun (.inr (by rfl))
  have hkept : ((writeStarter inProject none false).run (projectTree "output_dir: [")).result =
      .error (.alreadyThere (projectFile inProject none)) := by rfl
  have hforced : ((writeStarter inProject none true).run (projectTree "output_dir: [")).result =
      .ok (projectFile inProject none) := by rfl
  obtain ⟨-, -, hdefaults⟩ := (writeStarter_effect inProject none false settledTree).1 _ hwritten
  obtain ⟨-, ⟨location, -, hcontents⟩, -⟩ :=
    (writeStarter_effect inProject none true _).1 _ hforced
  exact ⟨by decide +kernel, hdefaults, (writeStarter_effect inProject none false _).2.1 _ hkept,
    location, hcontents⟩

end ServiceManual.Configuration
