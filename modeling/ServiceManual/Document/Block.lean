import ServiceManual.Expansion

/-!
# Blocks of a document

A document is a sequence of blocks, each of which has its own lines.  In the document every block
is followed by one empty line, and nothing else separates blocks.
-/

namespace ServiceManual

/-- An item of a bullet list. -/
inductive Bullet
  /-- A parameter or property with its rules. -/
  | member (name : String) (type : Expansion) (required : Bool) (description : List String)
      (rules : List String)
  /-- The keys or the values of a dictionary. -/
  | side (label : String) (type : Expansion)
  /-- A value of an enum. -/
  | value (text : String) (description : Option String)

namespace Bullet

/-- A text set as code. -/
def quoted (text : String) : String :=
  "`" ++ text ++ "`"

/-- The text of a description behind an item, if there is one. -/
def described (description : Option String) : String :=
  match description with
  | some text => " - " ++ text
  | none => ""

/-- The paragraphs of a description in one line. -/
def joined (description : List String) : Option String :=
  if description.isEmpty then none else some (" ".intercalate description)

/-- The lines of an item: its own, and one for each rule. -/
def lines : Bullet → List String
  | .member name type required description rules =>
    ("- " ++ quoted name ++ " " ++ type.text ++ (if required then "" else " (optional)") ++
      described (joined description)) :: rules.map ("  - " ++ ·)
  | .side label type => ["- " ++ label ++ ": " ++ type.text]
  | .value text description => ["- " ++ quoted text ++ described description]

end Bullet

/-- A block of a document. -/
inductive Block
  /-- A comment that names the source of the document. -/
  | banner (lines : List String)
  | heading (level : Nat) (text : String)
  /-- A table of contents: titles of chapters, each with the headings in it. -/
  | contents (chapters : List (String × List String))
  | paragraph (text : String)
  /-- A name set as code. -/
  | code (name : String)
  /-- The name of a method and its parameters, each with whether it is required. -/
  | signature (name : String) (parameters : List (String × Bool))
  | returns (type : Expansion)
  | bullets (items : List Bullet)

namespace Block

/-- A heading as a link to itself. -/
def headingLink (heading : String) : String :=
  "[" ++ heading ++ "](" ++ Naming.anchor heading ++ ")"

/-- A parameter in a signature, marked if it may be left out. -/
def signatureName (parameter : String × Bool) : String :=
  parameter.1 ++ (if parameter.2 then "" else "?")

/-- The text of a signature.  The parameters stand in braces; all of them together may be left out
if none is required. -/
def signatureText (name : String) (parameters : List (String × Bool)) : String :=
  if parameters.isEmpty then name
  else name ++ "(\x7b" ++ ", ".intercalate (parameters.map signatureName) ++ "\x7d" ++
    (if parameters.any Prod.snd then "" else " | undefined") ++ ")"

/-- The lines of a block. -/
def lines : Block → List String
  | .banner lines => "<!--" :: lines ++ ["-->"]
  | .heading level text => [String.ofList (List.replicate level '#') ++ " " ++ text]
  | .contents chapters => chapters.flatMap fun chapter =>
      ("- " ++ chapter.1) :: chapter.2.map fun heading => "  - " ++ headingLink heading
  | .paragraph text => [text]
  | .code name => [Bullet.quoted name]
  | .signature name parameters => [Bullet.quoted (signatureText name parameters)]
  | .returns type => ["Returns: " ++ type.text]
  | .bullets items => items.flatMap Bullet.lines

end Block

end ServiceManual
