import ServiceManual.Loading
import ServiceManual.Proofs.Service.Faults

/-!
# What loading ends with

Loading a service is meant to end in one of two ways, with a service or with a refusal that names
the file.  With a raw value it does unless reading the value breaks off, and with a file it does
unless the file holds such a value or fails as YAML in a way that is not taken for its fault
(`Service.isAnswer_iff`).  A list of types with a number in it is such a value
(`not_isAnswer_numberAmongTypes`).
-/

namespace ServiceManual

open Raw Checked

/-- Loading ended with a service, or with a refusal that names this file. -/
def IsAnswer (path : Option Path) (outcome : Except LoadFailure Service) : Prop :=
  (∃ service, outcome = .ok service) ∨
    ∃ error, outcome = .error (.refused error) ∧ error.path? = path

variable {path : Path} {value : Raw} {fields : List (Scalar × Raw)}

theorem isAnswer_ofRaw_iff (path : Option Path) (value : Raw) :
    IsAnswer path (Service.ofRaw path value) ↔ ¬ Service.BreaksOff value := by
  rw [← Service.isBroken_read, Service.ofRaw]
  cases Service.read value with
  | valid service => simp [IsAnswer]
  | invalid issues => simp [IsAnswer, LoadError.path?]
  | broken fault => simp [IsAnswer]

/-! ## Files -/

theorem field?_insert_of_ne {name other : String} (hother : other ≠ name) (part : Raw) :
    field? name (Raw.insert (.text other) part fields) = field? name fields := by
  rw [Raw.insert]
  induction fields with
  | nil => simp [insertBy, field?, hother]
  | cons entry rest ih =>
      obtain ⟨key, given⟩ := entry
      rw [insertBy]
      split
      · rename_i hsame
        simp [field?, eq_text_of_sameKey hsame, hother]
      · simp only [field?, ih]

/-- The name of the file, put in as the source, makes no difference to where reading breaks off. -/
theorem breaksOff_withSource :
    Service.BreaksOff (.mapping (withSource path fields)) ↔
      Service.BreaksOff (.mapping fields) := by
  have hfield : ∀ name, "source_path" ≠ name →
      field? name (withSource path fields) = field? name fields := by
    intro name hname
    unfold withSource
    split
    · exact field?_insert_of_ne hname _
    · rfl
  simp [Service.BreaksOff, HasItem, hfield]

/-- Loading from a file breaks off: the file is YAML of a kind for which the file is not blamed, or
it holds a mapping that breaks off. -/
def Service.FileBreaksOff (tree : FileTree) (path : Path) : Prop :=
  ∃ bytes, tree.read path = .ok bytes ∧
    ((∃ failure, Yaml.valueOf (.inPortions bytes) = .error failure ∧
        failure.speaksAgainstFile = false) ∨
      ∃ fields, Yaml.valueOf (.inPortions bytes) = .ok (.mapping fields) ∧
        Service.BreaksOff (.mapping fields))

theorem result_load (path : Path) (tree : FileTree) :
    ((Service.load path).run tree).result =
      Service.ofFile path ((readRaw path .inPortions).run tree).result := by
  rw [Service.load, Plan.bind_eq, Plan.run_bind]
  cases Service.ofFile path ((readRaw path .inPortions).run tree).result <;> rfl

theorem result_readRaw (path : Path) (source : ByteArray → Yaml.Source) (tree : FileTree) :
    ((readRaw path source).run tree).result =
      match tree.read path with
      | .error cause => .error (.file cause)
      | .ok bytes => (Yaml.valueOf (source bytes)).mapError .yaml := by
  simp only [readRaw, Plan.bind_eq, Plan.run_bind, Plan.contentsOf, Plan.run]
  cases tree.read path with
  | error cause => rfl
  | ok bytes => cases hvalue : Yaml.valueOf (source bytes) <;> simp [hvalue, Except.mapError]

theorem isAnswer_load_iff (path : Path) (tree : FileTree) :
    IsAnswer (some path) ((Service.load path).run tree).result ↔
      ¬ Service.FileBreaksOff tree path := by
  rw [result_load, result_readRaw]
  cases hread : tree.read path with
  | error cause => simp [Service.FileBreaksOff, Service.ofFile, IsAnswer, LoadError.path?, hread]
  | ok bytes =>
      cases hvalue : Yaml.valueOf (.inPortions bytes) with
      | error failure =>
          cases hblame : failure.speaksAgainstFile <;>
            simp [Service.FileBreaksOff, Service.ofFile, IsAnswer, LoadError.path?, hread, hvalue,
              hblame, Except.mapError]
      | ok value =>
          cases value with
          -- Only a mapping is read as a service; all else is refused at once.
          | mapping fields =>
              simp [Service.FileBreaksOff, Service.ofFile, hread, hvalue, Except.mapError,
                isAnswer_ofRaw_iff, breaksOff_withSource]
          | scalar | list | set | pair =>
              simp [Service.FileBreaksOff, Service.ofFile, IsAnswer, LoadError.path?, hread, hvalue,
                Except.mapError]

/-- **How loading ends.**  It ends with a service or with a refusal that names the file, except for
values at which reading breaks off, and for files with such values or with YAML that fails without
blame. -/
theorem Service.isAnswer_iff (path : Path) :
    (∀ origin value, IsAnswer origin (Service.ofRaw origin value) ↔ ¬ Service.BreaksOff value) ∧
      ∀ tree, IsAnswer (some path) ((Service.load path).run tree).result ↔
        ¬ Service.FileBreaksOff tree path :=
  ⟨isAnswer_ofRaw_iff, isAnswer_load_iff path⟩

/-- A description with a number among its types. -/
def numberAmongTypes : Raw :=
  .ofFields [("title", .text "Pets"), ("types", .list [.scalar (.integer 1)])]

/-- An item of a list of types that is no mapping is neither taken nor refused. -/
theorem not_isAnswer_numberAmongTypes : ¬ IsAnswer none (Service.ofRaw none numberAmongTypes) := by
  have hbreaks : Service.ofRaw none numberAmongTypes =
      .error (.escaped (.fault (.nameless .integer))) := rfl
  rw [hbreaks]
  rintro (⟨service, h⟩ | ⟨error, h, -⟩) <;> cases h

end ServiceManual
