import ServiceManual.Command

/-!
# The command line

Carries out the plan of a command on the real files.  Output goes to the standard output, notes
and complaints to the standard error.

Each operation follows its counterpart on a file tree.  What is asked about a path is answered
without opening what is there, so a file that may not be read is there nevertheless, and the making
of directories tells the path where it stopped.  Two things are seen less sharply than by the
system: what is neither a directory nor a regular file counts as a regular file, and a surrogate
that stands for a byte in a file name is looked for under its stand-in.
-/

namespace ServiceManual.Main

/-- The number of a failure.  Reading a whole file gives its negative, in 32 bits. -/
def failureNumber (code : UInt32) : Nat :=
  if code < 0x80000000 then code.toNat else 0x100000000 - code.toNat

/-- A failure of the system as a failure of a file. -/
def fileError (error : IO.Error) : FileError :=
  match error with
  | .noFileOrDirectory .. => .notFound
  | .alreadyExists .. => .alreadyExists
  | .inappropriateType _ code _ =>
    match failureNumber code with
    | 20 => .notDirectory
    | 21 => .isDirectory
    | _ => .other (toString error)
  | .invalidArgument _ code _ =>
    if failureNumber code = 36 then .nameTooLong else .other (toString error)
  | _ => .other (toString error)

/-- The result of an action on the text of a path, or how it failed. -/
def attempt {α : Type} (path : Path) (action : String → IO α) : IO (Except FileError α) := do
  if let some cause := FileTree.unfit? path then
    return .error cause
  try
    return .ok (← action path.toText)
  catch error =>
    return .error (fileError error)

/-- How an action failed, unless it succeeded. -/
def failure? {α : Type} : Except FileError α → Option FileError
  | .ok _ => none
  | .error cause => some cause

/-- Does a path lead to a directory?  A dot can follow nothing else. -/
def isDirectory (path : Path) : IO Bool := do
  let place ← attempt path fun text => IO.FS.realPath (text ++ "/.")
  return (failure? place).isNone

/-- Why a path leads to nothing, unless it leads to something.  That it does is seen without
opening what is there; why it does not is only told by opening. -/
def absence? (path : Path) : IO (Option FileError) := do
  let place ← attempt path fun text => IO.FS.realPath text
  if (failure? place).isNone then
    return none
  return failure? (← attempt path fun text => IO.FS.Handle.mk text .read)

/-- Does a path lead to anything? -/
def doesExist (path : Path) : IO (Except FileError Bool) := do
  match ← absence? path with
  | none => return .ok true
  | some cause => return FileTree.answered (.error cause)

/-- Does a path lead to a file? -/
def isFile (path : Path) : IO (Except FileError Bool) := do
  match ← absence? path with
  | none => return .ok (!(← isDirectory path))
  | some cause => return FileTree.answered (.error cause)

/-- Make a directory, unless there is one already. -/
def ensureDirectory (path : Path) : IO (Option FileError) := do
  match failure? (← attempt path fun text => IO.FS.createDir text) with
  | none => return none
  | some .notFound => return some .notFound
  | some cause => return if ← isDirectory path then none else some cause

/-- Make a directory and those on the way to it, given the segments of its path from the last to
the first.  When making stops, the path where it stopped is told. -/
def ensureWay (anchor : String) : List String → IO (Option (Path × FileError))
  | [] => return none
  | segment :: before => do
    let path : Path := ⟨anchor, (segment :: before).reverse⟩
    match ← ensureDirectory path with
    | none => return none
    | some .notFound =>
      match ← ensureWay anchor before with
      | some failure => return some failure
      | none => return (← ensureDirectory path).map fun cause => (path, cause)
    | some cause => return some (path, cause)

/-- Say something. -/
def utter (utterance : Utterance) : IO Unit :=
  match utterance with
  | .output text => IO.println text
  | other => IO.eprintln other.written

/-- Carry out a plan. -/
def perform {α : Type} : Plan α → IO α
  | .done result => return result
  | .read path next => do
    let answer ← attempt path fun text => IO.FS.readBinFile text
    perform (next answer)
  | .isFile path next => do
    let answer ← isFile path
    perform (next answer)
  | .doesExist path next => do
    let answer ← doesExist path
    perform (next answer)
  | .makeDirectories path next => do
    let failure ← ensureWay path.anchor path.segments.reverse
    perform (next failure)
  | .write path contents next => do
    let written ← attempt path fun text => IO.FS.writeBinFile text contents
    perform (next (failure? written))
  | .say utterance next => do
    utter utterance
    perform next

/-- How the program is called. -/
def usage : String :=
  "Usage: svcdocs COMMAND [ARGS]...\n\n" ++
    "Generate Markdown reference docs for service interfaces.\n\n" ++
    "  generate SERVICE_FILE [-o DIR] [-p DIR] [--no-banner] [-w N] [-v]\n" ++
    "  closure SERVICE_FILE INTERFACE [-v]\n" ++
    "  init [-p DIR] [-f]"

/-- The places that the program finds itself in. -/
def environment : IO Environment := do
  let here := toString (← IO.currentDir)
  let home := (← IO.getEnv "HOME").getD ""
  return ⟨.ofText here, (Path.ofText home).append [".svcdocs"]⟩

/-- Do what the arguments ask for, and give the exit code. -/
def run (arguments : List String) : IO UInt32 := do
  match Request.ofArguments arguments with
  | .misuse =>
    IO.eprintln usage
    return 2
  | .help =>
    IO.println usage
    return 0
  | .command command =>
    let ending ← perform (command.plan (← environment))
    if let .stopped escape := ending then
      IO.eprintln (Text.escapeSurrogates escape.message)
    return ending.code.toUInt32

end ServiceManual.Main

/-- The program. -/
def main (arguments : List String) : IO UInt32 :=
  ServiceManual.Main.run arguments
