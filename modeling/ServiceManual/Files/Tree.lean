import ServiceManual.Files.Path
import ServiceManual.Text.Surrogate

/-!
# File trees

The regular files and directories that a program finds and leaves.  A node is stored under its
location, the names on the way from the root; the root itself is always a directory.  A path is
resolved from the working directory by going from name to name, each time from a directory that
has to exist, a double dot leading back.
-/

namespace ServiceManual

/-- What can go wrong with a file. -/
inductive FileError
  | notFound
  | isDirectory
  | notDirectory
  | alreadyExists
  /-- A name, or a path as a whole, is longer than a file system takes. -/
  | nameTooLong
  /-- A path holds the null character. -/
  | embeddedNull
  /-- A path has no encoding in bytes. -/
  | unencodable (problem : Text.Unencodable)
  /-- Any other failure, in the words of the system. -/
  | other (text : String)
  deriving DecidableEq, Repr

/-- A node of a file tree. -/
inductive Node
  | file (contents : ByteArray)
  | directory

/-- A place in a file tree: the names on the way from the root. -/
abbrev Location := List String

/-- A file tree and the working directory in it. -/
structure FileTree where
  nodes : List (Location × Node)
  workingDirectory : Location

namespace FileTree

/-- The node at a location. -/
def node? (tree : FileTree) (location : Location) : Option Node :=
  if location.isEmpty then some .directory
  else (tree.nodes.find? fun entry => entry.1 == location).map Prod.snd

/-- Put a node at a location, in place of what is there. -/
def put (tree : FileTree) (location : Location) (node : Node) : FileTree :=
  { tree with
    nodes := (location, node) :: tree.nodes.filter fun entry => entry.1 != location }

/-- The greatest length of a name, in bytes. -/
def nameLimit : Nat := 255

/-- The greatest length of a path, in bytes. -/
def pathLimit : Nat := 4095

/-- Go from a location along names. -/
def follow (tree : FileTree) (location : Location) : List String → Except FileError Location
  | [] => .ok location
  | name :: rest =>
    match tree.node? location with
    | none => .error .notFound
    | some (.file _) => .error .notDirectory
    | some .directory =>
      if name == ".." then tree.follow location.dropLast rest
      else if nameLimit < Text.nameSize name then .error .nameTooLong
      else tree.follow (location ++ [name]) rest

/-- Why a path cannot be one of a file, whatever files there are. -/
def unfit? (path : Path) : Option FileError :=
  let text := path.toText
  match Text.unnameable? text with
  | some problem => some (.unencodable problem)
  | none =>
    if text.toList.contains '\x00' then some .embeddedNull
    else if pathLimit < Text.nameSize text then some .nameTooLong
    else none

/-- The location that a path leads to.  What is there need not exist, but the way there has to. -/
def locate (tree : FileTree) (path : Path) : Except FileError Location :=
  match unfit? path with
  | some cause => .error cause
  | none => tree.follow (if path.anchor.isEmpty then tree.workingDirectory else []) path.segments

/-- What a path leads to. -/
def lookUp (tree : FileTree) (path : Path) : Except FileError Node :=
  match tree.locate path with
  | .error cause => .error cause
  | .ok location =>
    match tree.node? location with
    | some node => .ok node
    | none => .error .notFound

/-- The answer to a question about what a path leads to.  It is no if there is no way along the path
or it cannot be encoded; any other failure leaves that open. -/
def answered : Except FileError Bool → Except FileError Bool
  | .error .notFound | .error .notDirectory => .ok false
  | .error .embeddedNull | .error (.unencodable _) => .ok false
  | answer => answer

/-- Does a path lead to a node of this kind? -/
def leadsTo (tree : FileTree) (kind : Node → Bool) (path : Path) : Except FileError Bool :=
  answered ((tree.lookUp path).map kind)

/-- Does a path lead to a regular file? -/
def isFile (tree : FileTree) : Path → Except FileError Bool :=
  tree.leadsTo fun node =>
    match node with
    | .file _ => true
    | .directory => false

/-- Does a path lead to anything? -/
def doesExist (tree : FileTree) : Path → Except FileError Bool :=
  tree.leadsTo fun _ => true

/-- Does a path lead to a directory? -/
def isDirectory (tree : FileTree) (path : Path) : Bool :=
  match tree.lookUp path with
  | .ok .directory => true
  | _ => false

/-- The contents of the file that a path leads to. -/
def read (tree : FileTree) (path : Path) : Except FileError ByteArray :=
  match tree.lookUp path with
  | .ok (.file contents) => .ok contents
  | .ok .directory => .error .isDirectory
  | .error cause => .error cause

/-- Write a file, new or in place of a file that is there. -/
def write (tree : FileTree) (path : Path) (contents : ByteArray) : Except FileError FileTree :=
  match tree.locate path with
  | .error cause => .error cause
  | .ok location =>
    match tree.node? location with
    | some .directory => .error .isDirectory
    | _ => .ok (tree.put location (.file contents))

/-- Make one directory, the way to which exists. -/
def makeDirectory (tree : FileTree) (path : Path) : Except FileError FileTree :=
  match tree.locate path with
  | .error cause => .error cause
  | .ok location =>
    match tree.node? location with
    | some _ => .error .alreadyExists
    | none => .ok (tree.put location .directory)

/-- Make a directory, unless there is one already. -/
def ensureDirectory (tree : FileTree) (path : Path) : Except FileError FileTree :=
  match tree.makeDirectory path with
  | .ok made => .ok made
  | .error .notFound => .error .notFound
  | .error cause => if tree.isDirectory path then .ok tree else .error cause

/-- Make a directory and those on the way to it, given the segments of its path from the last to
the first.  The way there is made only where it is missing.  When making stops, what has been made
stays, and the path where it stopped is told. -/
def ensureWay (anchor : String) : List String → FileTree → Option (Path × FileError) × FileTree
  | [], tree => (none, tree)
  | segment :: before, tree =>
    let path : Path := ⟨anchor, (segment :: before).reverse⟩
    match tree.ensureDirectory path with
    | .ok made => (none, made)
    | .error .notFound =>
      match ensureWay anchor before tree with
      | (some failure, made) => (some failure, made)
      | (none, made) =>
        match made.ensureDirectory path with
        | .ok complete => (none, complete)
        | .error cause => (some (path, cause), made)
    | .error cause => (some (path, cause), tree)

/-- Make a directory and those on the way to it. -/
def makeDirectories (tree : FileTree) (path : Path) : Option (Path × FileError) × FileTree :=
  ensureWay path.anchor path.segments.reverse tree

/-- The paths of all regular files below the working directory, in order. -/
def files (tree : FileTree) : List String :=
  let below := tree.nodes.filterMap fun entry =>
    match entry with
    | (location, .file _) =>
      if tree.workingDirectory.isPrefixOf location then
        some ("/".intercalate (location.drop tree.workingDirectory.length))
      else none
    | _ => none
  below.mergeSort fun a b => decide (a ≤ b)

end FileTree

end ServiceManual
