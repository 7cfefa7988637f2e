import ServiceManual.Configuration
import ServiceManual.Service

/-!
# Where a document comes from

The lines of the banner that a generated document carries: which package made it, from which
description, and how to make it again.
-/

namespace ServiceManual

/-- The package that makes the documents. -/
structure Package where
  name : String
  version : String
  homepage : Option String
  deriving DecidableEq, Repr

namespace Package

open Raw Checked

/-- This package. -/
def default : Package := ⟨"svcdocs", "0.1.0", none⟩

/-- Read the identity of a package. -/
def read : Raw → Checked Package :=
  readModel "PackageInfo" fun fields =>
    Package.mk <$> requiredField "name" readText fields <*>
      requiredField "version" readText fields <*>
      optionalField "homepage" none (readNullable readText) fields

/-- The line on the output directory, unless none is known. -/
def outputLine (outputDir : Option String) : List String :=
  match outputDir with
  | none => []
  | some dir => if dir.isEmpty then [] else ["   (output directory: " ++ dir ++ ")"]

/-- The lines on the description that a document was made from, unless it is not known. -/
def sourceLines (package : Package) (source outputDir : Option String) : List String :=
  match source with
  | none => []
  | some path =>
    if path.isEmpty then []
    else
      ["", "To make changes to the contents of this file:", "1. Edit " ++ path,
        "2. Run " ++ package.name ++ " generate " ++ path] ++ outputLine outputDir

/-- The lines on the home page of the package, unless it has none. -/
def homepageLines (package : Package) : List String :=
  match package.homepage with
  | none => []
  | some page => if page.isEmpty then [] else ["", "About " ++ package.name ++ ": " ++ page]

/-- The lines of the banner of a service's documents. -/
def banner (package : Package) (service : Service) (outputDir : Option String) : List String :=
  ["This file was generated by " ++ package.name ++ "@" ++ package.version, "",
    "Changes to this file may cause incorrect behavior and will be lost if",
    "the documentation is regenerated."] ++
    package.sourceLines service.sourcePath outputDir ++ package.homepageLines

end Package

end ServiceManual
