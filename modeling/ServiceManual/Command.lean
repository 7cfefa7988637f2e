import ServiceManual.Command.Arguments
import ServiceManual.Loading

/-!
# The commands

The command line has three commands.  `generate` writes the pages of a service, `closure` shows
what an interface reaches, and `init` writes a starter configuration.  A command is first read
from its arguments and then carried out as a plan, which ends with an exit code unless something
stops it.
-/

namespace ServiceManual

/-- A command with its options. -/
inductive Command
  | generate (file : Path) (output project : Option Path) (noBanner : Bool)
      (workers : Option Int) (verbose : Bool)
  | closure (file : Path) (interface : String) (verbose : Bool)
  | init (project : Option Path) (force : Bool)
  deriving DecidableEq, Repr

/-- What the arguments of the command line ask for. -/
inductive Request
  | command (command : Command)
  | help
  | misuse
  deriving DecidableEq, Repr

namespace Request

open Arguments

/-- The option that asks for help. -/
private def helpSpec : Spec := ⟨"help", none, false⟩

/-- The option that asks for more notes. -/
private def verboseSpec : Spec := ⟨"verbose", some 'v', false⟩

/-- The options of `generate`. -/
def generateSpecs : List Spec :=
  [⟨"output", some 'o', true⟩, ⟨"project", some 'p', true⟩, ⟨"no-banner", none, false⟩,
    ⟨"workers", some 'w', true⟩, verboseSpec, helpSpec]

/-- The options of `closure`. -/
def closureSpecs : List Spec := [verboseSpec, helpSpec]

/-- The options of `init`. -/
def initSpecs : List Spec :=
  [⟨"project", some 'p', true⟩, ⟨"force", some 'f', false⟩, helpSpec]

/-- A number of workers, if one is given, has to be an integer and at least one. -/
def workers? (argument : Option String) : Option (Option Int) :=
  match argument with
  | none => some none
  | some text =>
    match Numeral.integer text.toList with
    | .ok workers => if 1 ≤ workers then some (some workers) else none
    | .error _ => none

/-- The path that an argument denotes.  None holds the null character. -/
def path? (argument : String) : Option Path :=
  if argument.toList.contains '\x00' then none else some (.ofText argument)

/-- The path that the value of an option denotes, if there is one. -/
def optionalPath? (argument : Option String) : Option (Option Path) :=
  match argument with
  | none => some none
  | some text => (path? text).map some

/-- The command `generate`. -/
def generate? (parsed : Parsed) : Option Command :=
  match parsed.positional with
  | [file] => do
    return .generate (← path? file) (← optionalPath? (parsed.value? "output"))
      (← optionalPath? (parsed.value? "project")) (parsed.has "no-banner")
      (← workers? (parsed.value? "workers")) (parsed.has "verbose")
  | _ => none

/-- The command `closure`. -/
def closure? (parsed : Parsed) : Option Command :=
  match parsed.positional with
  | [file, interface] => return .closure (← path? file) interface (parsed.has "verbose")
  | _ => none

/-- The command `init`. -/
def init? (parsed : Parsed) : Option Command :=
  match parsed.positional with
  | [] => return .init (← optionalPath? (parsed.value? "project")) (parsed.has "force")
  | _ => none

/-- A command with these options, from its arguments. -/
def withSpecs (specs : List Spec) (read? : Parsed → Option Command) (arguments : List String) :
    Request :=
  match parse specs arguments with
  | none => .misuse
  | some parsed =>
    if parsed.has "help" then .help
    else match read? parsed with
      | some asked => .command asked
      | none => .misuse

/-- A command, from its name and its arguments. -/
def ofCommand : List String → Request
  | "generate" :: arguments => withSpecs generateSpecs generate? arguments
  | "closure" :: arguments => withSpecs closureSpecs closure? arguments
  | "init" :: arguments => withSpecs initSpecs init? arguments
  | _ => .misuse

/-- What the arguments of the command line ask for. -/
def ofArguments : List String → Request
  | "--help" :: _ => .help
  | "--" :: rest => ofCommand rest
  | arguments => ofCommand arguments

end Request

namespace Command

/-- How a command ends: with an exit code, or stopped. -/
inductive Ending
  | exit (code : Nat)
  | stopped (escape : Escape)
  deriving DecidableEq, Repr

/-- The exit code of a program that ends in this way. -/
def Ending.code : Ending → Nat
  | .exit code => code
  | .stopped _ => 1

/-- The least level of the notes that are shown. -/
def leastLevel (verbose : Bool) : Level :=
  if verbose then .debug else .info

/-- The configuration with the options of a command put in. -/
def configured (configuration : Configuration) (output : Option Path) (noBanner : Bool)
    (workers : Option Int) : Configuration :=
  { outputDir := (output.map Path.toText).getD configuration.outputDir
    banner := configuration.banner && !noBanner
    settings := ⟨workers.getD configuration.settings.maxWorkers⟩ }

/-- Say all of these things. -/
def sayAll : List Utterance → Plan Unit
  | [] => return ()
  | utterance :: rest => .say utterance (sayAll rest)

/-- Print lines, without styles, and end.  A line without encoding stops that. -/
def printAll : List String → Plan Ending
  | [] => return .exit 0
  | line :: rest => do
    let plain := Text.withoutStyles line
    match Text.unencodable? plain with
    | some problem => return .stopped (.unencodable problem)
    | none =>
      Plan.print plain
      printAll rest

/-- The notes that are made when it is found out what an interface reaches. -/
def reachNotes (interface : Interface) (reach : Reach) : List Utterance :=
  let note (text : String) : Utterance := .note .debug "svcdocs.docs.closure" text ""
  reach.unknown.map (fun name => note ("Unresolved type reference: " ++ name)) ++
    [note ("Closure for " ++ interface.name ++ ": " ++ toString reach.types.length ++
      " types, " ++ toString reach.enums.length ++ " enums, " ++
      toString reach.unions.length ++ " unions")]

/-- Load a service and go on with it; end if it is refused. -/
def withService (file : Path) (next : Service → Plan Ending) : Plan Ending := do
  match ← Service.load file with
  | .ok service => next service
  | .error (.refused error) =>
    Plan.complain ("Error: " ++ error.headline) error.detail
    return .exit 1
  | .error (.escaped escape) => return .stopped escape

/-- Write the pages of a service.  An interface with something that cannot be written out is the
last one that is looked at. -/
def generatePages (configuration : Configuration) (service : Service) : Plan Ending := do
  let writable := service.interfaces.takeWhile (Manual.isWritable service)
  sayAll ((service.interfaces.take (writable.length + 1)).flatMap fun interface =>
    reachNotes interface (.ofInterface service interface))
  match Manual.pages? service configuration .default with
  | none => return .stopped (.ofObstacle (Manual.firstObstacle service))
  | some pages =>
    Plan.note .info "svcdocs.generator"
      ("Rendered " ++ toString pages.length ++ " document(s) for " ++ service.title) ""
    match ← Manual.save (.ofText configuration.outputDir) pages with
    | .error escape => return .stopped escape
    | .ok paths => printAll (paths.map Path.toText)

/-- A line that shows the names of entities, a hyphen if there are none. -/
def namesLine (label : String) (names : List String) : String :=
  let joined := ", ".intercalate names
  label ++ ": " ++ if joined.isEmpty then "-" else joined

/-- The lines that show what an interface reaches. -/
def reachLines (reach : Reach) : List String :=
  let types (table : Table ComplexType) := table.map fun entry => entry.2.name
  let enums (table : Table EnumType) := table.map fun entry => entry.2.name
  let unions (table : Table UnionType) := table.map fun entry => entry.2.name
  [namesLine "Input types" (types (Reach.sorted reach.input.types)),
    namesLine "Output types" (types (Reach.sorted reach.output.types)),
    namesLine "Types" (types reach.types),
    namesLine "Input enums" (enums (Reach.sorted reach.input.enums)),
    namesLine "Output enums" (enums (Reach.sorted reach.output.enums)),
    namesLine "Enums" (enums reach.enums),
    namesLine "Input unions" (unions (Reach.sorted reach.input.unions)),
    namesLine "Output unions" (unions (Reach.sorted reach.output.unions)),
    namesLine "Unions" (unions reach.unions)]

/-- Show what an interface of a service reaches. -/
def showReach (name : String) (service : Service) : Plan Ending := do
  match service.interface? name with
  | none =>
    Plan.complain ("Error: interface not found: " ++ name) ""
    return .exit 1
  | some interface =>
    let reach := Reach.ofInterface service interface
    sayAll (reachNotes interface reach)
    printAll (reachLines reach)

/-- Write a starter configuration. -/
def starter (environment : Environment) (project : Option Path) (force : Bool) :
    Plan Ending := do
  let refuse (reason : String) : Plan Ending := do
    Plan.complain ("Error: " ++ reason ++ " already exists (use --force to overwrite)") ""
    return .exit 1
  match ← Configuration.writeStarter environment project force with
  | .ok path => printAll [path.toText]
  | .error (.alreadyThere path) => refuse path.toText
  | .error (.file path .alreadyExists) =>
    refuse ("[Errno 17] File exists: " ++ Text.quoted path.toText)
  | .error (.file path cause) => return .stopped (.file path cause)

/-- Carry out a command. -/
def plan (environment : Environment) : Command → Plan Ending
  | .generate file output project noBanner workers verbose =>
    Plan.hush (leastLevel verbose) do
      match ← Configuration.load environment project with
      | .error escape => return .stopped escape
      | .ok configuration =>
        withService file (generatePages (configured configuration output noBanner workers))
  | .closure file interface verbose =>
    Plan.hush (leastLevel verbose) (withService file (showReach interface))
  | .init project force => Plan.hush .warning (starter environment project force)

end Command

end ServiceManual
