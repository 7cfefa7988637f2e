import ServiceManual.Proofs.Files.Plan
import ServiceManual.Proofs.Files.Tree
import ServiceManual.Proofs.Loading

/-!
# Which configuration applies

A configuration is looked for under two paths, and the first one that leads to a regular file
counts.  Without such a file the defaults apply.  With one, what its text sets applies if that can
be read as a configuration; if the text is malformed or no UTF-8, or sets what no configuration
has, the defaults apply (`Configuration.Applies`).

A project is meant to get one configuration or the other in all cases.  It does unless the search
or the reading is stopped (`Configuration.Stops`): by a path that is too long, or by a failure of
YAML for which the file is not passed over.  Nothing else stops it
(`Configuration.result_load_iff`).  Of the failures for which the file of a service is blamed one
kind is not among those passed over here, values that do not exist
(`Yaml.Failure.speaksAgainstFile_iff`).  So a date in a thirteenth month in a configuration stops
everything (`Configuration.impossibleDate_stops`).
-/

namespace ServiceManual

/-! ## Failures -/

/-- A configuration file that fails as YAML in this way is passed over. -/
def Yaml.Failure.isPassedOver : Yaml.Failure → Bool
  | .malformed _ | .undecodable => true
  | _ => false

/-- The file of a service is blamed for one more kind of failure than those for which the file of
a configuration is passed over. -/
theorem Yaml.Failure.speaksAgainstFile_iff (failure : Yaml.Failure) :
    failure.speaksAgainstFile = true ↔
      failure.isPassedOver = true ∨ ∃ what, failure = .impossible what := by
  cases failure <;> simp [speaksAgainstFile, isPassedOver]

namespace Configuration

open Raw Checked

variable {environment : Environment} {project : Option Path} {tree : FileTree} {path : Path}
  {paths before rest : List Path} {bytes : ByteArray} {configuration : Configuration}
  {escape : Escape}

/-- Whatever a file sets, reading a configuration from it does not break off. -/
theorem not_isBroken_read (value : Raw) : ¬ (Configuration.read value).IsBroken := by
  have hworkers : ∀ value, ¬ (readWorkers value).IsBroken := by
    intro value
    rw [readWorkers, isBroken_andThen, not_or]
    refine ⟨not_isBroken_readInteger value, ?_⟩
    rintro ⟨workers, -, hbroken⟩
    split at hbroken
    · exact not_isBroken_valid _ hbroken
    · exact not_isBroken_refuse _ hbroken
  have hsettings : ∀ value, ¬ (WorkSettings.read value).IsBroken := by
    intro value
    simp [WorkSettings.read, isBroken_readModel, hworkers]
  simp [Configuration.read, isBroken_readModel, not_isBroken_readText, not_isBroken_readFlag,
    hsettings]

/-! ## The search -/

/-- Of some paths this is the first one for which the answer is not that there is no regular
file; for it the answer is this one. -/
def IsFirst (tree : FileTree) (paths : List Path) (path : Path)
    (answer : Except FileError Bool) : Prop :=
  ∃ before after, paths = before ++ path :: after ∧
    (∀ earlier ∈ before, tree.isFile earlier = .ok false) ∧ tree.isFile path = answer

theorem IsFirst.cons {other : Path} {answer : Except FileError Bool}
    (hfirst : IsFirst tree rest path answer) (hother : tree.isFile other = .ok false) :
    IsFirst tree (other :: rest) path answer := by
  obtain ⟨before, after, rfl, hbefore, hanswer⟩ := hfirst
  exact ⟨other :: before, after, rfl, List.forall_mem_cons.mpr ⟨hother, hbefore⟩, hanswer⟩

/-- The answers for some paths: there is no regular file under any of them, or there is a first
one, or a first one for which that stays open. -/
theorem search_cases (tree : FileTree) (paths : List Path) :
    (∀ path ∈ paths, tree.isFile path = .ok false) ∨
      (∃ path, IsFirst tree paths path (.ok true)) ∨
      ∃ path, IsFirst tree paths path (.error .nameTooLong) := by
  induction paths with
  | nil => exact .inl nofun
  | cons path rest ih =>
      cases hanswer : tree.isFile path with
      | error cause =>
          obtain rfl := FileTree.eq_nameTooLong_of_isFile hanswer
          exact .inr (.inr ⟨path, [], rest, rfl, nofun, hanswer⟩)
      | ok found =>
          cases found with
          | true => exact .inr (.inl ⟨path, [], rest, rfl, nofun, hanswer⟩)
          | false =>
              -- Without a file under this path the first one is the first of the others.
              rcases ih with hnone | ⟨other, hfirst⟩ | ⟨other, hfirst⟩
              · exact .inl (List.forall_mem_cons.mpr ⟨hanswer, hnone⟩)
              · exact .inr (.inl ⟨other, hfirst.cons hanswer⟩)
              · exact .inr (.inr ⟨other, hfirst.cons hanswer⟩)

theorem onlyAsks_firstFile (paths : List Path) : (firstFile paths).OnlyAsks := by
  induction paths with
  | nil => exact True.intro
  | cons path rest ih =>
      intro answer
      rcases answer with cause | found | found
      · exact True.intro
      · exact ih
      · exact True.intro

/-- The answer for the first path counts, unless it is that there is no regular file. -/
theorem result_firstFile_cons (path : Path) (rest : List Path) (tree : FileTree) :
    ((firstFile (path :: rest)).run tree).result =
      match tree.isFile path with
      | .ok true => .ok (some path)
      | .ok false => ((firstFile rest).run tree).result
      | .error cause => .error (.file path cause) := by
  rw [firstFile, Plan.bind_eq, Plan.askIsFile, Plan.bind, Plan.run]
  rcases tree.isFile path with cause | found | found <;> rfl

/-- Paths under which there is no regular file are passed by. -/
theorem result_firstFile_append (hbefore : ∀ path ∈ before, tree.isFile path = .ok false) :
    ((firstFile (before ++ rest)).run tree).result = ((firstFile rest).run tree).result := by
  induction before with
  | nil => rfl
  | cons path before ih =>
      rw [List.forall_mem_cons] at hbefore
      rw [List.cons_append, result_firstFile_cons, hbefore.1]
      exact ih hbefore.2

theorem result_firstFile_of_forall (hnone : ∀ path ∈ paths, tree.isFile path = .ok false) :
    ((firstFile paths).run tree).result = .ok none := by
  have hall : ((firstFile (paths ++ [])).run tree).result = ((firstFile []).run tree).result :=
    result_firstFile_append hnone
  rw [List.append_nil] at hall
  exact hall

theorem IsFirst.result_firstFile_found (hfirst : IsFirst tree paths path (.ok true)) :
    ((firstFile paths).run tree).result = .ok (some path) := by
  obtain ⟨before, after, rfl, hbefore, hanswer⟩ := hfirst
  rw [result_firstFile_append hbefore, result_firstFile_cons, hanswer]

theorem IsFirst.result_firstFile_open {cause : FileError}
    (hfirst : IsFirst tree paths path (.error cause)) :
    ((firstFile paths).run tree).result = .error (.file path cause) := by
  obtain ⟨before, after, rfl, hbefore, hanswer⟩ := hfirst
  rw [result_firstFile_append hbefore, result_firstFile_cons, hanswer]

/-! ## The outcome -/

/-- The configuration that a verdict comes to, or what it stops everything with. -/
def Verdict.outcome : Verdict → Except Escape Configuration
  | .taken configuration => .ok configuration
  | .ignored _ => .ok {}
  | .escaped escape => .error escape

theorem result_load (environment : Environment) (project : Option Path) (tree : FileTree) :
    ((load environment project).run tree).result =
      match ((find environment project).run tree).result with
      | .error escape => .error escape
      | .ok none => .ok {}
      | .ok (some path) => (verdict path ((readRaw path .ofWhole).run tree).result).outcome := by
  have htree : ((find environment project).run tree).tree = tree :=
    (onlyAsks_firstFile _).tree_run tree
  rw [load, Plan.bind_eq, Plan.run_bind, htree]
  cases ((find environment project).run tree).result with
  | error escape => rfl
  | ok found =>
      cases found with
      | none => rfl
      | some path =>
          simp only [Plan.bind_eq, Plan.run_bind]
          cases verdict path ((readRaw path .ofWhole).run tree).result <;> rfl

/-- What the text of a file sets. -/
def settingsOf (value : Raw) : Raw :=
  if value.isEmpty then .mapping [] else value

/-- The configuration that the bytes of a file give: what they set, or the defaults. -/
inductive Gives (bytes : ByteArray) : Configuration → Prop
  | taken {value : Raw} {configuration : Configuration}
      (hvalue : Yaml.valueOf (.ofWhole bytes) = .ok value)
      (hread : Configuration.read (settingsOf value) = .valid configuration) :
      Gives bytes configuration
  | invalid {value : Raw} {issues : List Issue}
      (hvalue : Yaml.valueOf (.ofWhole bytes) = .ok value)
      (hread : Configuration.read (settingsOf value) = .invalid issues) : Gives bytes {}
  | unreadable {failure : Yaml.Failure}
      (hfailure : Yaml.valueOf (.ofWhole bytes) = .error failure)
      (hpassed : failure.isPassedOver = true) : Gives bytes {}

/-- The configuration that applies where it is looked for under these paths. -/
inductive Applies (tree : FileTree) (paths : List Path) : Configuration → Prop
  | defaults (hnone : ∀ path ∈ paths, tree.isFile path = .ok false) : Applies tree paths {}
  | given {path : Path} {bytes : ByteArray} {configuration : Configuration}
      (hfirst : IsFirst tree paths path (.ok true)) (hbytes : tree.read path = .ok bytes)
      (hgives : Gives bytes configuration) : Applies tree paths configuration

/-- What stops everything where a configuration is looked for under these paths. -/
inductive Stops (tree : FileTree) (paths : List Path) : Escape → Prop
  | search {path : Path} (hfirst : IsFirst tree paths path (.error .nameTooLong)) :
      Stops tree paths (.file path .nameTooLong)
  | reading {path : Path} {bytes : ByteArray} {failure : Yaml.Failure}
      (hfirst : IsFirst tree paths path (.ok true)) (hbytes : tree.read path = .ok bytes)
      (hfailure : Yaml.valueOf (.ofWhole bytes) = .error failure)
      (hpassed : failure.isPassedOver = false) : Stops tree paths (.yaml failure)

theorem outcome_verdict_ok {value : Raw} (path : Path) :
    (verdict path (.ok value)).outcome =
      match Configuration.read (settingsOf value) with
      | .valid configuration => .ok configuration
      | .invalid _ => .ok {}
      | .broken fault => .error (.fault fault) := by
  rw [verdict, settingsOf]
  cases Configuration.read (if value.isEmpty then .mapping [] else value) <;> rfl

theorem outcome_verdict_yaml (path : Path) (failure : Yaml.Failure) :
    (verdict path (.error (.yaml failure))).outcome =
      if failure.isPassedOver then .ok {} else .error (.yaml failure) := by
  cases failure <;> rfl

theorem result_load_found (hfirst : IsFirst tree (candidates environment project) path (.ok true))
    (hbytes : tree.read path = .ok bytes) :
    ((load environment project).run tree).result =
      (verdict path ((Yaml.valueOf (.ofWhole bytes)).mapError .yaml)).outcome := by
  have hfind : ((find environment project).run tree).result = .ok (some path) :=
    hfirst.result_firstFile_found
  have hraw : ((readRaw path .ofWhole).run tree).result =
      (Yaml.valueOf (.ofWhole bytes)).mapError .yaml := by
    rw [result_readRaw, hbytes]
  rw [result_load, hfind]
  exact congrArg (fun value => (verdict path value).outcome) hraw

theorem Gives.outcome_verdict (hgives : Gives bytes configuration) (path : Path) :
    (verdict path ((Yaml.valueOf (.ofWhole bytes)).mapError .yaml)).outcome =
      .ok configuration := by
  cases hgives with
  | taken hvalue hread => simp only [hvalue, Except.mapError, outcome_verdict_ok, hread]
  | invalid hvalue hread => simp only [hvalue, Except.mapError, outcome_verdict_ok, hread]
  | unreadable hfailure hpassed =>
      simp only [hfailure, Except.mapError, outcome_verdict_yaml, hpassed, if_true]

theorem Applies.result_load
    (happlies : Applies tree (candidates environment project) configuration) :
    ((load environment project).run tree).result = .ok configuration := by
  cases happlies with
  | defaults hnone =>
      have hfind : ((find environment project).run tree).result = .ok none :=
        result_firstFile_of_forall hnone
      rw [Configuration.result_load, hfind]
  | given hfirst hbytes hgives =>
      rw [result_load_found hfirst hbytes]
      exact hgives.outcome_verdict _

theorem Stops.result_load (hstops : Stops tree (candidates environment project) escape) :
    ((load environment project).run tree).result = .error escape := by
  cases hstops with
  | search hfirst =>
      have hfind : ((find environment project).run tree).result =
          .error (.file _ .nameTooLong) := hfirst.result_firstFile_open
      rw [Configuration.result_load, hfind]
  | reading hfirst hbytes hfailure hpassed =>
      rw [result_load_found hfirst hbytes, hfailure, Except.mapError, outcome_verdict_yaml, hpassed]
      rfl

/-- The bytes of a file give a configuration, or fail as YAML without being passed over. -/
theorem gives_or_fails (bytes : ByteArray) :
    (∃ configuration, Gives bytes configuration) ∨
      ∃ failure, Yaml.valueOf (.ofWhole bytes) = .error failure ∧
        failure.isPassedOver = false := by
  cases hvalue : Yaml.valueOf (.ofWhole bytes) with
  | error failure =>
      cases hpassed : failure.isPassedOver with
      | true => exact .inl ⟨{}, .unreadable hvalue hpassed⟩
      | false => exact .inr ⟨failure, rfl, hpassed⟩
  | ok value =>
      refine .inl ?_
      cases hread : Configuration.read (settingsOf value) with
      | valid configuration => exact ⟨configuration, .taken hvalue hread⟩
      | invalid issues => exact ⟨{}, .invalid hvalue hread⟩
      | broken fault =>
          -- Unlike that of a service, the reader of a configuration never breaks off.
          exact absurd ⟨fault, hread⟩ (not_isBroken_read _)

theorem applies_or_stops (tree : FileTree) (paths : List Path) :
    (∃ configuration, Applies tree paths configuration) ∨ ∃ escape, Stops tree paths escape := by
  rcases search_cases tree paths with hnone | ⟨path, hfirst⟩ | ⟨path, hfirst⟩
  · exact .inl ⟨{}, .defaults hnone⟩
  · -- A regular file can be read, so it is its text that decides.
    obtain ⟨-, -, -, -, hfile⟩ := id hfirst
    obtain ⟨bytes, hbytes⟩ := FileTree.exists_read_of_isFile hfile
    rcases gives_or_fails bytes with ⟨configuration, hgives⟩ | ⟨failure, hfailure, hpassed⟩
    · exact .inl ⟨configuration, .given hfirst hbytes hgives⟩
    · exact .inr ⟨.yaml failure, .reading hfirst hbytes hfailure hpassed⟩
  · exact .inr ⟨.file path .nameTooLong, .search hfirst⟩

/-- **What loading a configuration ends with.**  It gives the configuration that applies to the
project, and it is stopped by nothing but a path that is too long or a failure of YAML for which
the file is not passed over. -/
theorem result_load_iff (environment : Environment) (project : Option Path) (tree : FileTree) :
    (∀ configuration, ((load environment project).run tree).result = .ok configuration ↔
        Applies tree (candidates environment project) configuration) ∧
      ∀ escape, ((load environment project).run tree).result = .error escape ↔
        Stops tree (candidates environment project) escape := by
  -- One of the two holds and fixes the result, so the other one cannot hold as well.
  rcases applies_or_stops tree (candidates environment project) with
    ⟨found, happlies⟩ | ⟨met, hstops⟩
  · have hresult := happlies.result_load
    refine ⟨fun configuration => ⟨fun h => ?_, Applies.result_load⟩,
      fun escape => ⟨fun h => ?_, Stops.result_load⟩⟩
    · rw [hresult] at h
      exact Except.ok.inj h ▸ happlies
    · rw [hresult] at h
      cases h
  · have hresult := hstops.result_load
    refine ⟨fun configuration => ⟨fun h => ?_, Applies.result_load⟩,
      fun escape => ⟨fun h => ?_, Stops.result_load⟩⟩
    · rw [hresult] at h
      cases h
    · rw [hresult] at h
      exact Except.error.inj h ▸ hstops

/-! ## A date that does not exist -/

/-- The files of a project whose configuration has this text. -/
def projectTree (text : String) : FileTree :=
  { nodes := [(["shop"], .directory), (["shop", fileName], .file text.toUTF8)]
    workingDirectory := ["shop"] }

/-- Where the program is called in that project. -/
def inProject : Environment :=
  ⟨.ofText "/shop", .ofText "/home/.svcdocs"⟩

/-- A configuration with a date in a thirteenth month is found and gives no configuration, although
the file of a service would be blamed for such a date. -/
theorem impossibleDate_stops :
    ((find inProject none).run (projectTree "output_dir: 2020-13-45\n")).result =
        .ok (some (.ofText "/shop/svcdocs.yaml")) ∧
      ((load inProject none).run (projectTree "output_dir: 2020-13-45\n")).result =
        .error (.yaml (.impossible "month must be in 1..12")) ∧
      (Yaml.Failure.impossible "month must be in 1..12").speaksAgainstFile = true := by
  exact ⟨by decide +kernel, by decide +kernel, rfl⟩

end Configuration

end ServiceManual
