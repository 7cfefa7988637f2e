import ServiceManual.Files.Plan
import ServiceManual.Manual
import ServiceManual.Service.Reading
import ServiceManual.Yaml.Document

/-!
# Loading and saving

From files to services and configurations, and from pages to files.  A service file that gives no
service is refused with an error that names the file.  A configuration file that gives no
configuration is passed over with a warning.  What is neither refused nor passed over escapes: it
stops whatever was going on.
-/

namespace ServiceManual

/-- Why a file gives no raw value. -/
inductive Unreadable
  | file (cause : FileError)
  | yaml (failure : Yaml.Failure)
  deriving DecidableEq, Repr

/-- What stops everything. -/
inductive Escape
  | fault (fault : Fault)
  | yaml (failure : Yaml.Failure)
  | file (path : Path) (cause : FileError)
  /-- A text that is to be written has no encoding. -/
  | unencodable (problem : Text.Unencodable)
  /-- An integer that is to be shown is too long to be written out. -/
  | unwritable
  deriving DecidableEq, Repr

/-- What keeps something from being shown stops everything. -/
def Escape.ofObstacle : Obstacle → Escape
  | .unwritable => .unwritable
  | .fault cause => .fault cause

/-- The raw value that a file holds, read in this way. -/
def readRaw (path : Path) (source : ByteArray → Yaml.Source) :
    Plan (Except Unreadable Raw) := do
  match ← Plan.contentsOf path with
  | .error cause => return .error (.file cause)
  | .ok bytes =>
    match Yaml.valueOf (source bytes) with
    | .ok value => return .ok value
    | .error failure => return .error (.yaml failure)

/-! ## Wording -/

/-- The reason in words. -/
def FileError.message : FileError → String
  | .notFound => "No such file or directory"
  | .isDirectory => "Is a directory"
  | .notDirectory => "Not a directory"
  | .alreadyExists => "File exists"
  | .nameTooLong => "File name too long"
  | .embeddedNull => "embedded null byte"
  | .unencodable problem => problem.message
  | .other text => text

/-- The reason in words. -/
def Yaml.Failure.message : Yaml.Failure → String
  | .malformed what => what
  | .impossible what => what
  | .oversized what => what
  | .unknownWord word => Text.quoted word
  | .emptyNumber => "string index out of range"
  | .unreadableDate => "'NoneType' object has no attribute 'groupdict'"
  | .datedMapping => "expected string or bytes-like object, got 'list'"
  | .undecodable => "the file is not UTF-8 text"

/-- The reason in words. -/
def Unreadable.message : Unreadable → String
  | .file cause => cause.message
  | .yaml failure => failure.message

/-- The reason in words. -/
def Escape.message : Escape → String
  | .fault cause => cause.message
  | .yaml cause => cause.message
  | .file path cause => path.toText ++ ": " ++ cause.message
  | .unencodable problem => problem.message
  | .unwritable => unwritableText

/-! ## Services -/

/-- Why a service is refused. -/
inductive LoadError
  | unreadable (path : Path) (cause : Unreadable)
  | notMapping (path : Path)
  | invalid (path : Option Path) (issues : List Issue)
  deriving DecidableEq, Repr

/-- How many validation errors there are, for a model of this name. -/
def countIssues (issues : List Issue) (model : String) : String :=
  toString issues.length ++ (if issues.length = 1 then " validation error" else
    " validation errors") ++ " for " ++ model

/-- A text behind the path that it is about. -/
def aboutPath (path : Option Path) (text : String) : String :=
  match path with
  | some path => path.toText ++ ": " ++ text
  | none => text

namespace LoadError

/-- The file that was to be loaded. -/
def path? : LoadError → Option Path
  | .unreadable path _ => some path
  | .notMapping path => some path
  | .invalid path _ => path

/-- The first line of the message. -/
def headline : LoadError → String
  | .unreadable path _ => aboutPath (some path) "failed to read:"
  | .notMapping path => aboutPath (some path) "expected a mapping at the top level"
  | .invalid path issues =>
    aboutPath path ("invalid service IR: " ++ countIssues issues "Service")

/-- An issue in a line. -/
def issueLine (issue : Issue) : String :=
  let steps := issue.location.map fun step =>
    match step with
    | .key name => name
    | .index position => toString position
  "\n  " ++ ".".intercalate steps ++ ": " ++ issue.problem.message

/-- What stands behind the first line of the message. -/
def detail : LoadError → String
  | .unreadable _ cause => " " ++ cause.message
  | .notMapping _ => ""
  | .invalid _ issues => String.join (issues.map issueLine)

end LoadError

/-- Why there is no service: the description was refused, or reading it broke off. -/
inductive LoadFailure
  | refused (error : LoadError)
  | escaped (escape : Escape)
  deriving DecidableEq, Repr

/-- The service that a raw value describes, from this file or from none. -/
def Service.ofRaw (path : Option Path) (value : Raw) : Except LoadFailure Service :=
  match Service.read value with
  | .valid service => .ok service
  | .invalid issues => .error (.refused (.invalid path issues))
  | .broken fault => .error (.escaped (.fault fault))

/-- The fields of a description, with the file it comes from as its source unless it names one. -/
def withSource (path : Path) (fields : List (Scalar × Raw)) : List (Scalar × Raw) :=
  if ((Raw.field? "source_path" fields).getD .null).isEmpty then
    Raw.insert (.text "source_path") (.text path.toText) fields
  else fields

/-- Does a failure speak against the file?  If not, it stops everything. -/
def Yaml.Failure.speaksAgainstFile : Yaml.Failure → Bool
  | .malformed _ | .impossible _ | .undecodable => true
  | .oversized _ | .unknownWord _ | .emptyNumber | .unreadableDate | .datedMapping => false

/-- The service that the raw value in a file describes. -/
def Service.ofFile (path : Path) (value : Except Unreadable Raw) : Except LoadFailure Service :=
  match value with
  | .error (.file cause) => .error (.refused (.unreadable path (.file cause)))
  | .error (.yaml failure) =>
    if failure.speaksAgainstFile then .error (.refused (.unreadable path (.yaml failure)))
    else .error (.escaped (.yaml failure))
  | .ok (.mapping fields) => Service.ofRaw (some path) (.mapping (withSource path fields))
  | .ok _ => .error (.refused (.notMapping path))

/-- Load a service. -/
def Service.load (path : Path) : Plan (Except LoadFailure Service) := do
  match Service.ofFile path (← readRaw path .inPortions) with
  | .error failure => return .error failure
  | .ok service =>
    Plan.note .info "svcdocs.io.reader"
      ("Loaded service " ++ service.title ++ " from " ++ path.toText ++ " (" ++
        toString service.interfaces.length ++ " interfaces, " ++
        toString service.types.length ++ " types)") ""
    return .ok service

/-! ## Configurations -/

/-- The places that a program finds itself in. -/
structure Environment where
  workingDirectory : Path
  userDirectory : Path

namespace Configuration

/-- The name of a configuration file. -/
def fileName : String := "svcdocs.yaml"

/-- The directory of a project; the working directory unless one is named. -/
def projectDirectory (environment : Environment) (project : Option Path) : Path :=
  project.getD environment.workingDirectory

/-- The configuration file of a project. -/
def projectFile (environment : Environment) (project : Option Path) : Path :=
  (projectDirectory environment project).append [fileName]

/-- Where a configuration is looked for: first in the project, then with the user. -/
def candidates (environment : Environment) (project : Option Path) : List Path :=
  [projectFile environment project, environment.userDirectory.append [fileName]]

/-- The first of some paths that leads to a regular file. -/
def firstFile : List Path → Plan (Except Escape (Option Path))
  | [] => return .ok none
  | path :: rest => do
    match ← Plan.askIsFile path with
    | .ok true => return .ok (some path)
    | .ok false => firstFile rest
    | .error cause => return .error (.file path cause)

/-- The configuration file that applies to a project. -/
def find (environment : Environment) (project : Option Path) :
    Plan (Except Escape (Option Path)) :=
  firstFile (candidates environment project)

/-- What a configuration file comes to: a configuration, or a reason to pass it over, or a stop. -/
inductive Verdict
  | taken (configuration : Configuration)
  | ignored (reason : String)
  | escaped (escape : Escape)

/-- What the raw value in a configuration file comes to.  A value without contents stands for the
defaults. -/
def verdict (path : Path) (value : Except Unreadable Raw) : Verdict :=
  match value with
  | .error (.yaml (.malformed what)) => .ignored what
  | .error (.yaml .undecodable) => .ignored Yaml.Failure.undecodable.message
  | .error (.yaml failure) => .escaped (.yaml failure)
  | .error (.file .embeddedNull) => .escaped (.file path .embeddedNull)
  | .error (.file (.unencodable problem)) => .escaped (.file path (.unencodable problem))
  | .error (.file cause) => .ignored cause.message
  | .ok value =>
    match Configuration.read (if value.isEmpty then .mapping [] else value) with
    | .valid configuration => .taken configuration
    | .invalid issues => .ignored (countIssues issues "DocsConfig")
    | .broken fault => .escaped (.fault fault)

/-- The configuration of a project. -/
def load (environment : Environment) (project : Option Path) :
    Plan (Except Escape Configuration) := do
  match ← find environment project with
  | .error escape => return .error escape
  | .ok none =>
    Plan.note .debug "svcdocs.config.loader" ("No " ++ fileName ++ " found, using defaults") ""
    return .ok {}
  | .ok (some path) =>
    match verdict path (← readRaw path .ofWhole) with
    | .taken configuration =>
      Plan.note .debug "svcdocs.config.loader" ("Using config " ++ path.toText) ""
      return .ok configuration
    | .ignored reason =>
      Plan.note .warning "svcdocs.config.loader" ("Ignoring " ++ path.toText ++ ":")
        (" " ++ reason)
      return .ok {}
    | .escaped escape => return .error escape

/-- The text of a configuration file that says nothing but the defaults. -/
def starterText : String :=
  let defaults : Configuration := {}
  "output_dir: " ++ defaults.outputDir ++ "\n" ++
    "banner: " ++ (if defaults.banner then "true" else "false") ++ "\n" ++
    "settings:\n  max_workers: " ++ toString defaults.settings.maxWorkers ++ "\n"

/-- Why no starter file was written. -/
inductive StarterError
  | alreadyThere (path : Path)
  | file (path : Path) (cause : FileError)
  deriving DecidableEq, Repr

/-- Write the default configuration to the file of a project, over one that is there only by
force. -/
def writeStarter (environment : Environment) (project : Option Path) (force : Bool) :
    Plan (Except StarterError Path) := do
  let path := projectFile environment project
  match ← Plan.askExists path with
  | .error cause => return .error (.file path cause)
  | .ok there =>
    if there && !force then return .error (.alreadyThere path)
    else
      match ← Plan.ensureDirectories path.parent with
      | some (stopped, cause) => return .error (.file stopped cause)
      | none =>
        match ← Plan.setContents path starterText.toUTF8 with
        | some cause => return .error (.file path cause)
        | none =>
          Plan.note .info "svcdocs.config.loader" ("Wrote " ++ path.toText) ""
          return .ok path

end Configuration

/-! ## Pages -/

namespace Manual

/-- What is written of a text, and why not more of it: a text without encoding leaves its file
empty. -/
def encoded (text : String) : ByteArray × Option Escape :=
  match Text.unencodable? text with
  | some problem => (ByteArray.empty, some (.unencodable problem))
  | none => (text.toUTF8, none)

/-- Write pages below a directory, one after the other, and give their paths.  Writing stops at
the first page that cannot be written. -/
def save (directory : Path) : List Page → Plan (Except Escape (List Path))
  | [] => return .ok []
  | page :: rest => do
    let path := directory.append page.path
    match ← Plan.ensureDirectories path.parent with
    | some (stopped, cause) => return .error (.file stopped cause)
    | none =>
      let (contents, problem) := encoded page.contents
      match ← Plan.setContents path contents, problem with
      | some cause, _ => return .error (.file path cause)
      | none, some escape => return .error escape
      | none, none =>
        Plan.note .info "svcdocs.io.writer" ("Wrote " ++ path.toText) ""
        match ← save directory rest with
        | .ok paths => return .ok (path :: paths)
        | .error escape => return .error escape

end Manual

end ServiceManual
