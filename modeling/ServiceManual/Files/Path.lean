import ServiceManual.Text.Pieces

/-!
# Paths

A path is the names on the way to a file, from the root or from the working directory.  Written
out, empty names and single dots are left out, while a double dot stays, because what it leads to
depends on the files there are.
-/

namespace ServiceManual

/-- A path.  The anchor is empty for a path from the working directory, and the slashes in front
for a path from the root. -/
structure Path where
  anchor : String
  segments : List String
  deriving DecidableEq, Repr

namespace Path

/-- The slashes that a path from the root begins with: two if there are exactly two, else one. -/
def anchorOf : List Char → String
  | '/' :: '/' :: '/' :: _ => "/"
  | '/' :: '/' :: _ => "//"
  | '/' :: _ => "/"
  | _ => ""

/-- The path that a text denotes. -/
def ofText (text : String) : Path :=
  { anchor := anchorOf text.toList
    segments := ((Text.splitOn '/' text.toList).map String.ofList).filter
      fun segment => !segment.isEmpty && segment != "." }

/-- The text of a path; a dot for the path without segments. -/
def toText (path : Path) : String :=
  let text := path.anchor ++ "/".intercalate path.segments
  if text.isEmpty then "." else text

/-- A path followed from another one. -/
def join (base path : Path) : Path :=
  if path.anchor.isEmpty then { base with segments := base.segments ++ path.segments } else path

/-- A path lengthened by segments. -/
def append (base : Path) (segments : List String) : Path :=
  { base with segments := base.segments ++ segments }

/-- A path without its last segment. -/
def parent (path : Path) : Path :=
  { path with segments := path.segments.dropLast }

end Path

end ServiceManual
