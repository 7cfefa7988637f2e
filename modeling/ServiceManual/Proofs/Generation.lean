import ServiceManual.Command
import ServiceManual.Proofs.Configuration
import ServiceManual.Proofs.Manual.Writing

/-!
# What `generate` does to the files

The command loads a configuration and a service, makes all pages, and only then writes the first
one.  So before the writing nothing is changed (`Plan.OnlyAsks`), and when something cannot be
loaded everything stays as it is.  The writing goes from page to page (`Manual.Overwritten`): when
it comes to its end the paths of all pages are printed, and when the system stops it the pages
before that one are there (`Command.generate_effect`).

What is printed of a path is not always the path.  Instructions to a terminal are taken out of a
line that is printed, and a directory can be named with such instructions in its name
(`Command.styled_directory_printed`).
-/

namespace ServiceManual

/-! ## Loading changes nothing -/

theorem onlyAsks_readRaw (path : Path) (source : ByteArray → Yaml.Source) :
    (readRaw path source).OnlyAsks := by
  intro answer
  cases answer with
  | error cause => exact True.intro
  | ok bytes =>
      simp only [Plan.bind]
      cases Yaml.valueOf (source bytes) <;> exact True.intro

theorem Service.onlyAsks_load (path : Path) : (Service.load path).OnlyAsks := by
  refine (onlyAsks_readRaw path _).bind fun value => ?_
  cases Service.ofFile path value with
  | error failure => exact True.intro
  | ok service => exact (Plan.onlyAsks_note _ _ _ _).bind fun _ => True.intro

theorem Configuration.onlyAsks_load (environment : Environment) (project : Option Path) :
    (Configuration.load environment project).OnlyAsks := by
  refine (onlyAsks_firstFile _).bind fun found => ?_
  cases found with
  | error escape => exact True.intro
  | ok found =>
      cases found with
      | none => exact (Plan.onlyAsks_note _ _ _ _).bind fun _ => True.intro
      | some path =>
          refine (onlyAsks_readRaw path _).bind fun value => ?_
          cases verdict path value with
          | taken configuration => exact (Plan.onlyAsks_note _ _ _ _).bind fun _ => True.intro
          | ignored reason => exact (Plan.onlyAsks_note _ _ _ _).bind fun _ => True.intro
          | escaped escape => exact True.intro

namespace Command

theorem onlyAsks_sayAll {utterances : List Utterance}
    (hnotes : ∀ utterance ∈ utterances, utterance.output? = none) :
    (sayAll utterances).OnlyAsks := by
  induction utterances with
  | nil => exact True.intro
  | cons utterance rest ih =>
      rw [List.forall_mem_cons] at hnotes
      exact ⟨hnotes.1, ih hnotes.2⟩

theorem output?_of_mem_reachNotes {interface : Interface} {reach : Reach} {utterance : Utterance}
    (h : utterance ∈ reachNotes interface reach) : utterance.output? = none := by
  simp only [reachNotes, List.mem_append, List.mem_map, List.mem_singleton] at h
  rcases h with ⟨name, -, rfl⟩ | rfl
  · rfl
  · rfl

/-! ## Printing -/

/-- All lines are printed without styles, or one has no encoding; the files stay as they are. -/
theorem effect_printAll (lines : List String) (tree : FileTree) :
    (printAll lines).effect tree = ⟨.exit 0, lines.map Text.withoutStyles, tree⟩ ∨
      ∃ problem shown, (printAll lines).effect tree =
        ⟨.stopped (.unencodable problem), shown, tree⟩ := by
  induction lines with
  | nil => exact .inl rfl
  | cons line rest ih =>
      simp only [printAll]
      cases hproblem : Text.unencodable? (Text.withoutStyles line) with
      | some problem => exact .inr ⟨problem, [], rfl⟩
      | none =>
          simp only [Plan.bind_eq, Plan.effect_print_bind]
          rcases ih with hall | ⟨problem, shown, hsome⟩
          · rw [hall]
            exact .inl rfl
          · rw [hsome]
            exact .inr ⟨problem, _, rfl⟩

/-! ## Generating -/

variable {configuration : Configuration} {service : Service} {tree : FileTree}

/-- The directory that pages are written below. -/
def directoryFor (configuration : Configuration) : Path :=
  .ofText configuration.outputDir

/-- The pages that are made. -/
def pagesFor (configuration : Configuration) (service : Service) : List Page :=
  Manual.pages service configuration .default

/-- How writing the pages of a service goes: they cannot be made, or saving them stops, or they are
saved and their paths are printed. -/
theorem generatePages_cases (configuration : Configuration) (service : Service)
    (tree : FileTree) :
    (∃ obstacle, (generatePages configuration service).effect tree =
        ⟨.stopped (.ofObstacle obstacle), [], tree⟩) ∨
      (∃ escape lines left, (Manual.save (directoryFor configuration)
          (pagesFor configuration service)).effect tree = ⟨.error escape, lines, left⟩ ∧
        (generatePages configuration service).effect tree = ⟨.stopped escape, lines, left⟩) ∨
      ∃ paths left, (Manual.save (directoryFor configuration)
          (pagesFor configuration service)).effect tree = ⟨.ok paths, [], left⟩ ∧
        (generatePages configuration service).effect tree =
          (printAll (paths.map Path.toText)).effect left := by
  -- What is told of the interfaces beforehand is not printed.
  have hnotes : (sayAll ((service.interfaces.take
      ((service.interfaces.takeWhile (Manual.isWritable service)).length + 1)).flatMap
        fun interface => reachNotes interface (.ofInterface service interface))).OnlyAsks := by
    refine onlyAsks_sayAll fun utterance hutterance => ?_
    obtain ⟨interface, -, hnote⟩ := List.mem_flatMap.mp hutterance
    exact output?_of_mem_reachNotes hnote
  rw [generatePages, Plan.bind_eq, hnotes.effect_bind, Manual.pages?]
  by_cases hwritable : service.interfaces.all (Manual.isWritable service) = true
  · rw [if_pos hwritable]
    simp only [Plan.bind_eq]
    rw [(Plan.onlyAsks_note _ _ _ _).effect_bind, Plan.effect_bind]
    cases hsaving : (Manual.save (directoryFor configuration)
        (pagesFor configuration service)).effect tree with
    | mk result lines left =>
        rw [directoryFor, pagesFor] at hsaving
        rw [hsaving]
        cases result with
        | error escape =>
            refine .inr (.inl ⟨escape, lines, left, rfl, ?_⟩)
            simp only [Plan.pure_eq, Plan.effect_done, List.append_nil]
        | ok paths =>
            -- Saving itself prints nothing, so the paths are all that is printed.
            obtain rfl : lines = [] := (Manual.overwritten_of_save_ok hsaving).2
            exact .inr (.inr ⟨paths, left, rfl, rfl⟩)
  · rw [if_neg hwritable]
    exact .inl ⟨_, rfl⟩

/-! ## The command -/

/-- What the command comes to where it stops before the writing, or goes on to it. -/
theorem effect_generate (environment : Environment) (file : Path) (output project : Option Path)
    (noBanner : Bool) (workers : Option Int) (verbose : Bool) (tree : FileTree) :
    ((Command.generate file output project noBanner workers verbose).plan
        environment).effect tree =
      match ((Configuration.load environment project).run tree).result,
        ((Service.load file).run tree).result with
      | .error escape, _ => ⟨.stopped escape, [], tree⟩
      | .ok _, .error (.refused _) => ⟨.exit 1, [], tree⟩
      | .ok _, .error (.escaped escape) => ⟨.stopped escape, [], tree⟩
      | .ok configuration, .ok service =>
        (generatePages (configured configuration output noBanner workers) service).effect tree := by
  rw [plan, Plan.effect_hush, Plan.bind_eq,
    (Configuration.onlyAsks_load environment project).effect_bind]
  -- Loading only asks, so what comes next finds the tree as it was.
  cases ((Configuration.load environment project).run tree).result with
  | error escape => rfl
  | ok configuration =>
      simp only [withService, Plan.bind_eq]
      rw [(Service.onlyAsks_load file).effect_bind]
      cases ((Service.load file).run tree).result with
      | ok service => rfl
      | error failure => cases failure <;> rfl

/-- The configuration and the service with which the command is carried out. -/
structure Loads (environment : Environment) (project : Option Path) (file : Path)
    (tree : FileTree) (configuration : Configuration) (service : Service) : Prop where
  configuration : ((Configuration.load environment project).run tree).result = .ok configuration
  service : ((Service.load file).run tree).result = .ok service

/-- All pages are there: their paths are printed in order, up to styles, each path leads to a file
with the last page that has it, and no other regular file is changed. -/
structure Completed (directory : Path) (pages : List Page) (tree final : FileTree)
    (lines : List String) : Prop where
  printed : lines = pages.map fun page => Text.withoutStyles (directory.append page.path).toText
  lasts : ∀ page ∈ pages, ∃ last, Manual.IsLastAt pages page.path last ∧
    final.read (directory.append page.path) = .ok last.contents.toUTF8
  others : ∀ location,
    (∀ page ∈ pages, final.locate (directory.append page.path) ≠ .ok location) →
      final.contents? location = tree.contents? location

/-- The system stopped a page: the regular files are the initial ones with the pages before it
written over them in order. -/
def StoppedAt (directory : Path) (pages : List Page) (tree final : FileTree) (path : Path)
    (cause : FileError) : Prop :=
  ∃ before page after middle, pages = before ++ page :: after ∧
    Manual.Overwritten directory before tree middle ∧
    Manual.StopsAt directory page middle path cause ∧
    Manual.Overwritten directory before tree final

theorem isPlain_of_mem_pagesFor {page : Page} (hpage : page ∈ pagesFor configuration service) :
    Manual.IsPlain page.path := by
  obtain ⟨interface, -, rfl⟩ := List.mem_map.mp hpage
  exact Manual.isPlain_documentPath interface _

theorem completed_of_code_eq_zero
    (hcode : ((generatePages configuration service).effect tree).result.code = 0) :
    Completed (directoryFor configuration) (pagesFor configuration service) tree
      ((generatePages configuration service).effect tree).tree
      ((generatePages configuration service).effect tree).printed := by
  -- Of the ways in which it can go only the last one ends well.
  rcases generatePages_cases configuration service tree with
    ⟨obstacle, heffect⟩ | ⟨escape, lines, left, -, heffect⟩ | ⟨paths, left, hsaving, heffect⟩
  · rw [heffect] at hcode
    cases hcode
  · rw [heffect] at hcode
    cases hcode
  · rcases effect_printAll (paths.map Path.toText) left with hall | ⟨problem, shown, hsome⟩
    · rw [heffect, hall]
      have hresult := congrArg Plan.Effect.result hsaving
      have htree := congrArg Plan.Effect.tree hsaving
      obtain ⟨hsaved, rfl⟩ := Manual.saved_of_ok (fun _ => isPlain_of_mem_pagesFor) hresult
      refine ⟨?_, fun page hpage => ?_, fun location hother => ?_⟩
      · simp only [List.map_map, Function.comp_def]
      · obtain ⟨last, hlast, hread⟩ := hsaved.lasts page hpage
        exact ⟨last, hlast, htree ▸ hread⟩
      · exact (Manual.overwritten_of_save_ok hsaving).1.contents?_eq hother
    · rw [heffect, hsome] at hcode
      cases hcode

theorem stoppedAt_of_result {path : Path} {cause : FileError}
    (hresult : ((generatePages configuration service).effect tree).result =
      .stopped (.file path cause)) :
    StoppedAt (directoryFor configuration) (pagesFor configuration service) tree
      ((generatePages configuration service).effect tree).tree path cause := by
  rcases generatePages_cases configuration service tree with
    ⟨obstacle, heffect⟩ | ⟨escape, lines, left, hsaving, heffect⟩ | ⟨paths, left, -, heffect⟩
  · rw [heffect] at hresult
    cases obstacle <;> cases hresult
  · rw [heffect] at hresult ⊢
    obtain rfl := Ending.stopped.inj hresult
    obtain ⟨before, page, after, paths, middle, hpages, hbefore, hstops, rfl⟩ :=
      Manual.exists_of_save_stopped hsaving
    -- The pages before it were saved, and making the way to it changed no file.
    have hover := (Manual.overwritten_of_save_ok hbefore).1
    exact ⟨before, page, after, middle, hpages, hover, hstops, hover.madeFor page⟩
  · rcases effect_printAll (paths.map Path.toText) left with hall | ⟨problem, shown, hsome⟩
    · rw [heffect, hall] at hresult
      cases hresult
    · rw [heffect, hsome] at hresult
      cases hresult

/-- **What `generate` does to the files.**  If the configuration or the service cannot be loaded,
it fails and leaves everything as it was.  If it ends well, the pages are there and their paths
printed, up to styles, and no other regular file is changed.  If the system stops a page, exactly
the pages before it are written. -/
theorem generate_effect (environment : Environment) (file : Path) (output project : Option Path)
    (noBanner : Bool) (workers : Option Int) (verbose : Bool) (tree : FileTree) :
    let ending := ((Command.generate file output project noBanner workers verbose).plan
      environment).effect tree
    ((∃ escape, ((Configuration.load environment project).run tree).result = .error escape) ∨
        (∃ failure, ((Service.load file).run tree).result = .error failure) →
      ending.result.code ≠ 0 ∧ ending.tree = tree) ∧
    (ending.result.code = 0 → ∃ configuration service,
      Loads environment project file tree configuration service ∧
      let adapted := configured configuration output noBanner workers
      Completed (directoryFor adapted) (pagesFor adapted service) tree ending.tree
        ending.printed) ∧
    ∀ configuration service path cause,
      Loads environment project file tree configuration service →
      ending.result = .stopped (.file path cause) →
      let adapted := configured configuration output noBanner workers
      StoppedAt (directoryFor adapted) (pagesFor adapted service) tree ending.tree path cause := by
  intro ending
  have heffect : ending = _ :=
    effect_generate environment file output project noBanner workers verbose tree
  refine ⟨fun hfails => ?_, fun hcode => ?_,
    fun configuration service path cause hloads hresult => ?_⟩
  · rcases hfails with ⟨escape, hconfiguration⟩ | ⟨failure, hservice⟩
    · rw [heffect, hconfiguration]
      exact ⟨Nat.one_ne_zero, rfl⟩
    · rw [heffect, hservice]
      cases ((Configuration.load environment project).run tree).result with
      | error escape => exact ⟨Nat.one_ne_zero, rfl⟩
      | ok configuration => cases failure <;> exact ⟨Nat.one_ne_zero, rfl⟩
  -- A command that ends well has loaded the configuration and the service.
  · cases hconfiguration : ((Configuration.load environment project).run tree).result with
    | error escape =>
        rw [heffect, hconfiguration] at hcode
        cases hcode
    | ok configuration =>
        cases hservice : ((Service.load file).run tree).result with
        | error failure =>
            rw [heffect, hconfiguration, hservice] at hcode
            cases failure <;> cases hcode
        | ok service =>
            rw [hconfiguration, hservice] at heffect
            refine ⟨configuration, service, ⟨hconfiguration, hservice⟩, ?_⟩
            rw [heffect] at hcode ⊢
            exact completed_of_code_eq_zero hcode
  · rw [hloads.configuration, hloads.service] at heffect
    rw [heffect] at hresult ⊢
    exact stoppedAt_of_result hresult

/-! ## In a shop -/

/-- The files of a shop: the description of two interfaces, and these nodes besides. -/
def shopTree (more : List (Location × Node)) : FileTree :=
  { nodes := (["shop"], .directory) :: (["shop", "shop.yaml"],
      .file "title: Shop\ninterfaces: [{name: a}, {name: b}]\n".toUTF8) :: more
    workingDirectory := ["shop"] }

/-- The shop where a directory has the name of the second page. -/
def blockedShop : FileTree :=
  shopTree [(["shop", "docs"], .directory), (["shop", "docs", "v1"], .directory),
    (["shop", "docs", "v1", "b-service.md"], .directory)]

/-- The pages of a description, written without banner below this directory. -/
def generateIn (file : Path) (output : Option Path) (tree : FileTree) : Plan.Effect Ending :=
  ((Command.generate file output none true none false).plan Configuration.inProject).effect tree

/-- Without a description nothing is changed, with one its pages are written, and where a directory
is in the way of the second page the first one is. -/
theorem generate_in_shop :
    ((generateIn (.ofText "missing.yaml") none (shopTree [])).result.code ≠ 0 ∧
        (generateIn (.ofText "missing.yaml") none (shopTree [])).tree = shopTree []) ∧
      ((generateIn (.ofText "shop.yaml") none (shopTree [])).result.code = 0 ∧
        ∃ configuration service,
          Loads Configuration.inProject none (.ofText "shop.yaml") (shopTree []) configuration
            service ∧
          let adapted := configured configuration none true none
          Completed (directoryFor adapted) (pagesFor adapted service) (shopTree [])
            (generateIn (.ofText "shop.yaml") none (shopTree [])).tree
            (generateIn (.ofText "shop.yaml") none (shopTree [])).printed) ∧
      (generateIn (.ofText "shop.yaml") none blockedShop).result =
          .stopped (.file (.ofText "docs/v1/b-service.md") .isDirectory) ∧
        ∃ configuration service,
          Loads Configuration.inProject none (.ofText "shop.yaml") blockedShop configuration
            service ∧
          let adapted := configured configuration none true none
          StoppedAt (directoryFor adapted) (pagesFor adapted service) blockedShop
            (generateIn (.ofText "shop.yaml") none blockedShop).tree
            (.ofText "docs/v1/b-service.md") .isDirectory := by
  have hmissing : ∃ failure,
      ((Service.load (.ofText "missing.yaml")).run (shopTree [])).result = .error failure := by
    have hread : (shopTree []).read (.ofText "missing.yaml") = .error .notFound := by
      decide +kernel
    refine ⟨.refused (.unreadable (.ofText "missing.yaml") (.file .notFound)), ?_⟩
    rw [result_load, result_readRaw, hread]
    rfl
  have hcode : (generateIn (.ofText "shop.yaml") none (shopTree [])).result.code = 0 := by
    decide +kernel
  have hstopped : (generateIn (.ofText "shop.yaml") none blockedShop).result =
      .stopped (.file (.ofText "docs/v1/b-service.md") .isDirectory) := by
    decide +kernel
  have hconfiguration : ((Configuration.load Configuration.inProject none).run
      blockedShop).result = .ok {} := by
    decide +kernel
  have hloaded : ((Service.load (.ofText "shop.yaml")).run blockedShop).result.isOk = true := by
    decide +kernel
  refine ⟨?_, ⟨hcode, ?_⟩, hstopped, ?_⟩
  · exact (generate_effect Configuration.inProject (.ofText "missing.yaml") none none true none
      false (shopTree [])).1 (.inr hmissing)
  · exact (generate_effect Configuration.inProject (.ofText "shop.yaml") none none true none
      false (shopTree [])).2.1 hcode
  · cases hservice : ((Service.load (.ofText "shop.yaml")).run blockedShop).result with
    | error failure =>
        rw [hservice] at hloaded
        cases hloaded
    | ok service =>
        have hloads : Loads Configuration.inProject none (.ofText "shop.yaml") blockedShop {}
            service := ⟨hconfiguration, hservice⟩
        exact ⟨{}, service, hloads, (generate_effect Configuration.inProject
          (.ofText "shop.yaml") none none true none false blockedShop).2.2 _ _ _ _ hloads
            hstopped⟩

/-- A directory whose name begins with an instruction to show what follows in green. -/
def styledDirectory : Path :=
  .ofText "\x1b[32mout"

/-- The path of a page below that directory is printed without the instruction, and then leads to
no file. -/
theorem styled_directory_printed :
    (generateIn (.ofText "shop.yaml") (some styledDirectory) (shopTree [])).result = .exit 0 ∧
      (generateIn (.ofText "shop.yaml") (some styledDirectory) (shopTree [])).printed =
        ["out/v1/a-service.md", "out/v1/b-service.md"] ∧
      (styledDirectory.append ["v1", "a-service.md"]).toText ≠ "out/v1/a-service.md" ∧
      (generateIn (.ofText "shop.yaml") (some styledDirectory) (shopTree [])).tree.isFile
        (styledDirectory.append ["v1", "a-service.md"]) = .ok true ∧
      (generateIn (.ofText "shop.yaml") (some styledDirectory) (shopTree [])).tree.isFile
        (.ofText "out/v1/a-service.md") = .ok false := by
  decide +kernel

end Command

end ServiceManual
