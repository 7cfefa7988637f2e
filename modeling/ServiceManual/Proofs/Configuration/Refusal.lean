import ServiceManual.Command
import ServiceManual.Proofs.Configuration.Starter
import ServiceManual.Proofs.Files.Directories
import ServiceManual.Proofs.Files.Plan

/-!
# When a starter file is refused

A starter file is not written over a configuration that is there, unless that is forced.  Under the
same message it is refused where its directory cannot be made because *something exists already*:
where a regular file blocks the way to the directory of the project (`FileTree.IsBlockedAt`).  Then
no configuration is there, and force makes no difference (`writeStarter_refused_iff`).

So the message does not always mean what it says.  A regular file in the place of the project
directory is answered with the advice to overwrite it, also where just that was asked for
(`starter_refused_over_file`).
-/

namespace ServiceManual.Configuration

variable {environment : Environment} {project : Option Path} {force : Bool}
  {tree left : FileTree} {path place directory : Path} {name : String}
  {result : Except StarterError Path}

/-! ## The two reasons -/

/-- What is there is kept unless that is forced. -/
theorem StarterEnds.eq_alreadyThere_iff (h : StarterEnds path force tree result left) :
    result = .error (.alreadyThere place) ↔
      place = path ∧ tree.doesExist path = .ok true ∧ force = false := by
  cases h with
  | unsettled hthere => simp [hthere]
  | kept hthere hforce => simp [hthere, hforce, eq_comm]
  | stopped hthere hforce | unwritten hthere hforce | written hthere hforce =>
      simp only [hthere, Except.ok.injEq, reduceCtorEq, Except.error.injEq, false_iff, not_and,
        Bool.not_eq_false]
      exact fun _ => hforce

/-- Something else exists already exactly where the way to the directory is blocked.  It makes no
difference what is forced. -/
theorem StarterEnds.eq_alreadyExists_iff
    (h : StarterEnds (directory.append [name]) force tree result left) :
    result = .error (.file place .alreadyExists) ↔
      tree.doesExist (directory.append [name]) = .ok false ∧
        tree.IsBlockedAt directory place := by
  have hparent : (directory.append [name]).parent = directory := by
    simp [Path.append, Path.parent]
  rw [← FileTree.makeDirectories_eq_alreadyExists_iff]
  cases h with
  | unsettled hthere =>
      obtain rfl := FileTree.eq_nameTooLong_of_leadsTo hthere
      simp [hthere]
  | kept hthere => simp [hthere]
  | @stopped there other cause made hthere hforce hway =>
      rw [hparent] at hway
      cases there with
      | true =>
          -- The directory of what is there need not be made.
          have hmade := FileTree.makeDirectories_of_isDirectory
            (FileTree.isDirectory_of_doesExist hthere)
          cases hway.symm.trans hmade
      | false => simp [hthere, hway]
  | unwritten _ _ hway hwrite =>
      rw [hparent] at hway
      have hcause := fun h => FileTree.write_ne_alreadyExists (hwrite.trans (congrArg _ h))
      simpa [hway] using fun _ => hcause
  | written _ _ hway =>
      rw [hparent] at hway
      simp [hway]

/-! ## The message -/

/-- The complaint that something is in the way and could be overwritten. -/
def overwriteAdvice (reason : String) : Utterance :=
  .complaint ("Error: " ++ reason ++ " already exists (use --force to overwrite)") ""

/-- What is named in that complaint, when writing ends like this. -/
def advisedOn? : Except StarterError Path → Option String
  | .error (.alreadyThere path) => some path.toText
  | .error (.file path .alreadyExists) =>
    some ("[Errno 17] File exists: " ++ Text.quoted path.toText)
  | _ => none

theorem said_writeStarter (environment : Environment) (project : Option Path) (force : Bool)
    (tree : FileTree) :
    ((writeStarter environment project force).run tree).said =
      match ((writeStarter environment project force).run tree).result with
      | .ok path => [.note .info "svcdocs.config.loader" ("Wrote " ++ path.toText) ""]
      | .error _ => [] := by
  generalize hpath : projectFile environment project = path
  simp only [writeStarter, hpath, Plan.bind_eq, Plan.askExists, Plan.bind, Plan.run]
  cases tree.doesExist path with
  | error cause => rfl
  | ok there =>
      cases hkept : there && !force with
      | true => simp only [hkept, if_true, Plan.pure_eq, Plan.run]
      | false =>
          simp only [hkept, Bool.false_eq_true, if_false, Plan.ensureDirectories, Plan.bind,
            Plan.run]
          rcases tree.makeDirectories path.parent with ⟨_ | ⟨place, cause⟩, made⟩
          · simp only [Plan.setContents, Plan.bind, Plan.run]
            cases made.write path starterText.toUTF8 <;> rfl
          · rfl

theorem complaint_notMem_printAll (text detail : String) (lines : List String) :
    Utterance.complaint text detail ∉ ((Command.printAll lines).run tree).said := by
  induction lines with
  | nil => simp [Command.printAll]
  | cons line rest ih =>
      simp only [Command.printAll]
      cases Text.unencodable? (Text.withoutStyles line) with
      | none => simpa [Plan.print, Plan.bind, Plan.run] using ih
      | some problem => simp

theorem overwriteAdvice_mem_init_iff {reason : String} :
    overwriteAdvice reason ∈ ((Command.plan environment (.init project force)).run tree).said ↔
      advisedOn? ((writeStarter environment project force).run tree).result = some reason := by
  -- Writing itself notes at most that it has written.
  have hquiet :
      overwriteAdvice reason ∉ ((writeStarter environment project force).run tree).said := by
    rw [said_writeStarter]
    cases ((writeStarter environment project force).run tree).result <;> simp [overwriteAdvice]
  have hheard : Plan.isHeard .warning (overwriteAdvice reason) = true := rfl
  rw [Command.plan, Plan.run_hush, Command.starter, Plan.bind_eq, Plan.run_bind]
  simp only [List.mem_filter, List.mem_append, hquiet, false_or, hheard, and_true]
  cases ((writeStarter environment project force).run tree).result with
  | ok path =>
      simp only [advisedOn?, reduceCtorEq, iff_false]
      exact complaint_notMem_printAll _ _ _
  | error error =>
      cases error with
      | alreadyThere path =>
          simp [advisedOn?, Plan.complain, Plan.bind, Plan.run, overwriteAdvice, eq_comm]
      | file path cause =>
          cases cause <;>
            simp [advisedOn?, Plan.complain, Plan.bind, Plan.run, overwriteAdvice, eq_comm]

theorem advisedOn?_eq_some_iff {reason : String} : advisedOn? result = some reason ↔
    (∃ place, result = .error (.alreadyThere place) ∧ reason = place.toText) ∨
      ∃ place, result = .error (.file place .alreadyExists) ∧
        reason = "[Errno 17] File exists: " ++ Text.quoted place.toText := by
  cases result with
  | ok path => simp [advisedOn?]
  | error error =>
      cases error with
      | alreadyThere path => simp [advisedOn?, eq_comm]
      | file path cause => cases cause <;> simp [advisedOn?, eq_comm]

/-- **When a starter file is refused.**  A configuration that is there is kept unless that is
forced.  Forced or not, something exists already exactly where there is no configuration and a
regular file blocks the way to the directory of the project.  The advice to use force is given in
either case and never else. -/
theorem writeStarter_refused_iff (environment : Environment) (project : Option Path) (force : Bool)
    (tree : FileTree) :
    let path := projectFile environment project
    let directory := projectDirectory environment project
    let result := ((writeStarter environment project force).run tree).result
    let said := ((Command.plan environment (.init project force)).run tree).said
    (∀ place, result = .error (.alreadyThere place) ↔
        place = path ∧ tree.doesExist path = .ok true ∧ force = false) ∧
      (∀ place, result = .error (.file place .alreadyExists) ↔
        tree.doesExist path = .ok false ∧ tree.IsBlockedAt directory place) ∧
      ∀ reason, overwriteAdvice reason ∈ said ↔
        (tree.doesExist path = .ok true ∧ force = false ∧ reason = path.toText) ∨
          tree.doesExist path = .ok false ∧ ∃ place, tree.IsBlockedAt directory place ∧
            reason = "[Errno 17] File exists: " ++ Text.quoted place.toText := by
  intro path directory result said
  have hends := starterEnds_run environment project force tree
  have hthere : ∀ place, result = .error (.alreadyThere place) ↔
      place = path ∧ tree.doesExist path = .ok true ∧ force = false :=
    fun place => hends.eq_alreadyThere_iff
  have hblocked : ∀ place, result = .error (.file place .alreadyExists) ↔
      tree.doesExist path = .ok false ∧ tree.IsBlockedAt directory place :=
    fun place => hends.eq_alreadyExists_iff
  refine ⟨hthere, hblocked, fun reason => ?_⟩
  rw [overwriteAdvice_mem_init_iff, advisedOn?_eq_some_iff]
  constructor
  · rintro (⟨place, hresult, rfl⟩ | ⟨place, hresult, rfl⟩)
    · obtain ⟨rfl, hexists, hforce⟩ := (hthere place).mp hresult
      exact .inl ⟨hexists, hforce, rfl⟩
    · obtain ⟨hmissing, hplace⟩ := (hblocked place).mp hresult
      exact .inr ⟨hmissing, place, hplace, rfl⟩
  · rintro (⟨hexists, hforce, rfl⟩ | ⟨hmissing, place, hplace, rfl⟩)
    · exact .inl ⟨path, (hthere path).mpr ⟨rfl, hexists, hforce⟩, rfl⟩
    · exact .inr ⟨place, (hblocked place).mpr ⟨hmissing, hplace⟩, rfl⟩

/-- A project directory with a regular file in it. -/
def occupiedTree : FileTree :=
  { nodes := [(["shop"], .directory), (["shop", "stock"], .file "x".toUTF8)]
    workingDirectory := ["shop"] }

/-- A starter file is refused although no configuration is there and although it is forced, and the
advice is to force it. -/
theorem starter_refused_over_file :
    let stock := Path.ofText "stock"
    occupiedTree.doesExist (projectFile inProject (some stock)) = .ok false ∧
      ((writeStarter inProject (some stock) true).run occupiedTree).result =
        .error (.file stock .alreadyExists) ∧
      overwriteAdvice "[Errno 17] File exists: 'stock'" ∈
        ((Command.plan inProject (.init (some stock) true)).run occupiedTree).said := by
  have hrefused :
      ((writeStarter inProject (some (.ofText "stock")) true).run occupiedTree).result =
        .error (.file (.ofText "stock") .alreadyExists) := by rfl
  refine ⟨by rfl, hrefused, ?_⟩
  rw [overwriteAdvice_mem_init_iff, hrefused]
  decide +kernel

end ServiceManual.Configuration
