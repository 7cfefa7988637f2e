import ServiceManual.Yaml.ScalarText
import ServiceManual.Yaml.TagText

/-!
# The tokens of a YAML text

A YAML text is cut into tokens, and the indentation of its lines is turned into tokens that start
and end block collections.

A key of a block mapping need not be marked.  That something was a key turns out only at the colon
behind it, so the position of whatever may be a key is kept, one for each level of brackets, and
the tokens that mark the key are inserted there when the colon comes.  The candidate is dropped at
the end of the line or after 1024 characters; where nothing but a key can stand, that is an error.

When the text cannot be cut further, the tokens before the first candidate are settled, and they
come first: what is wrong with them is found out before.
-/

namespace ServiceManual.Yaml

/-- A token. -/
inductive Token
  | directive (directive : Directive)
  | documentStart
  | documentEnd
  | blockSequenceStart
  | blockMappingStart
  | blockEnd
  | flowSequenceStart
  | flowSequenceEnd
  | flowMappingStart
  | flowMappingEnd
  | key
  | value
  | blockEntry
  | flowEntry
  | alias (name : String)
  | anchor (name : String)
  | tag (handle : Option String) (suffix : String)
  | scalar (text : String) (plain : Bool)
  deriving DecidableEq, Repr

/-- Something that may turn out to be a key: the number of tokens before it, whether nothing else
can stand there, and its position. -/
structure KeyCandidate where
  tokensBefore : Nat
  required : Bool
  index : Nat
  line : Nat
  column : Nat

/-- The state of cutting a text into tokens.  Tokens are kept last one first, together with their
number.  The indentation is the column of the innermost block collection, `-1` outside all of them,
and `outer` holds those of the collections around it. -/
structure Lexer where
  cursor : Cursor
  tokens : List Token
  tokenCount : Nat
  flowLevel : Nat
  indentation : Int
  outer : List Int
  keyAllowed : Bool
  candidates : List (Nat × KeyCandidate)

namespace Lexer

/-- The start of a text. -/
def start (source : Source) : Lexer :=
  { cursor := .start source, tokens := [], tokenCount := 0, flowLevel := 0, indentation := -1
    outer := [], keyAllowed := true, candidates := [] }

/-- The text is malformed. -/
def fail {α : Type} (what : String) : Except Failure α :=
  .error (.malformed what)

/-- Is the lexer outside brackets and braces? -/
def inBlock (lexer : Lexer) : Bool :=
  lexer.flowLevel == 0

/-- The column of the next character. -/
def column (lexer : Lexer) : Nat :=
  lexer.cursor.column

/-- Add a token. -/
def push (lexer : Lexer) (token : Token) : Lexer :=
  { lexer with tokens := token :: lexer.tokens, tokenCount := lexer.tokenCount + 1 }

/-- Add a token after this many of the tokens. -/
def insertAfter (lexer : Lexer) (count : Nat) (token : Token) : Lexer :=
  let later := lexer.tokenCount - count
  { lexer with
    tokens := lexer.tokens.take later ++ token :: lexer.tokens.drop later
    tokenCount := lexer.tokenCount + 1 }

/-- Run a scanner. -/
def scan {α : Type} (lexer : Lexer) (scanner : Scan α) : Except Failure (α × Lexer) :=
  match scanner.run lexer.cursor with
  | .ok (result, cursor) => .ok (result, { lexer with cursor })
  | .error failure => .error failure

/-- Move on and add a token. -/
def pass (lexer : Lexer) (places : Nat) (token : Token) : Except Failure Lexer := do
  let (_, lexer) ← lexer.scan (advance places)
  return lexer.push token

/-- Let a key begin here or not. -/
def allowKey (lexer : Lexer) (allowed : Bool) : Lexer :=
  { lexer with keyAllowed := allowed }

/-! ## Candidates for keys -/

/-- The candidate on the present level. -/
def candidate? (lexer : Lexer) : Option KeyCandidate :=
  (lexer.candidates.find? fun entry => entry.1 == lexer.flowLevel).map Prod.snd

/-- Forget the candidate on the present level. -/
def forget (lexer : Lexer) : Lexer :=
  { lexer with
    candidates := lexer.candidates.filter fun entry => entry.1 != lexer.flowLevel }

/-- Give up the candidate on the present level, which must not be required. -/
def giveUp (lexer : Lexer) : Except Failure Lexer :=
  match lexer.candidate? with
  | some candidate =>
    if candidate.required then fail "could not find expected ':'" else .ok lexer.forget
  | none => .ok lexer

/-- Is the colon of a candidate too late here? -/
def isStale (lexer : Lexer) (candidate : KeyCandidate) : Bool :=
  candidate.line != lexer.cursor.line || 1024 < lexer.cursor.index - candidate.index

/-- Drop the candidates whose colon is too late. -/
def dropStale (lexer : Lexer) : Except Failure Lexer :=
  if lexer.candidates.any fun entry => lexer.isStale entry.2 && entry.2.required then
    fail "could not find expected ':'"
  else
    .ok { lexer with
      candidates := lexer.candidates.filter fun entry => !lexer.isStale entry.2 }

/-- Take the position here as a candidate, if a key may begin here. -/
def propose (lexer : Lexer) : Except Failure Lexer :=
  if lexer.keyAllowed then do
    let lexer ← lexer.giveUp
    let candidate : KeyCandidate :=
      { tokensBefore := lexer.tokenCount
        required := lexer.inBlock && lexer.indentation == lexer.column
        index := lexer.cursor.index
        line := lexer.cursor.line
        column := lexer.column }
    return { lexer with candidates := (lexer.flowLevel, candidate) :: lexer.candidates }
  else .ok lexer

/-! ## Indentation -/

/-- End block collections that are indented further than a column, given the columns of those
around them. -/
def unwindFrom (column : Int) : List Int → Lexer → Lexer
  | [], lexer => lexer
  | indentation :: outer, lexer =>
    if column < lexer.indentation then
      unwindFrom column outer ({ lexer with indentation, outer }.push .blockEnd)
    else lexer

/-- End block collections that are indented further than a column. -/
def unwind (lexer : Lexer) (column : Int) : Lexer :=
  if lexer.inBlock then unwindFrom column lexer.outer lexer else lexer

/-- Begin a block collection at a column that is indented further than the present one. -/
def indent? (lexer : Lexer) (column : Nat) : Option Lexer :=
  if lexer.indentation < column then
    some { lexer with indentation := column, outer := lexer.indentation :: lexer.outer }
  else none

/-- Begin a block collection here, if it is indented further than the present one. -/
def indentWith (lexer : Lexer) (token : Token) : Lexer :=
  match lexer.indent? lexer.column with
  | some indented => indented.push token
  | none => lexer

/-! ## Tokens one by one -/

/-- Pass over what is between tokens.  Outside brackets a key may begin on each new line. -/
def skipBetween : Nat → Lexer → Except Failure Lexer
  | 0, lexer => .ok lexer
  | fuel + 1, lexer => do
    let (lineEnd, lexer) ← lexer.scan do
      skipComment
      takeBreak
    if lineEnd.isEmpty then return lexer
    else skipBetween fuel (if lexer.inBlock then lexer.allowKey true else lexer)

/-- End everything that a new document ends. -/
def closeDocument (lexer : Lexer) : Except Failure Lexer := do
  let lexer ← (lexer.unwind (-1)).giveUp
  return lexer.allowKey false

/-- A bracket or brace that opens. -/
def openFlow (lexer : Lexer) (token : Token) : Except Failure Lexer := do
  let lexer ← lexer.propose
  ({ lexer with flowLevel := lexer.flowLevel + 1 }.allowKey true).pass 1 token

/-- A bracket or brace that closes. -/
def closeFlow (lexer : Lexer) (token : Token) : Except Failure Lexer := do
  let lexer ← lexer.giveUp
  if lexer.inBlock then fail "found a closing bracket that was not opened"
  else ({ lexer with flowLevel := lexer.flowLevel - 1 }.allowKey false).pass 1 token

/-- A comma between brackets or braces. -/
def flowEntry (lexer : Lexer) : Except Failure Lexer := do
  let lexer ← (lexer.allowKey true).giveUp
  lexer.pass 1 .flowEntry

/-- The hyphen before an item of a block sequence. -/
def blockEntry (lexer : Lexer) : Except Failure Lexer := do
  if lexer.inBlock && !lexer.keyAllowed then fail "sequence entries are not allowed here"
  let lexer := if lexer.inBlock then lexer.indentWith .blockSequenceStart else lexer
  let lexer ← (lexer.allowKey true).giveUp
  lexer.pass 1 .blockEntry

/-- The question mark before a key. -/
def markedKey (lexer : Lexer) : Except Failure Lexer := do
  if lexer.inBlock && !lexer.keyAllowed then fail "mapping keys are not allowed here"
  let lexer := if lexer.inBlock then lexer.indentWith .blockMappingStart else lexer
  let lexer ← (lexer.allowKey lexer.inBlock).giveUp
  lexer.pass 1 .key

/-- A colon behind a candidate, which thereby is a key. -/
def valueOf (lexer : Lexer) (candidate : KeyCandidate) : Except Failure Lexer :=
  let marked := lexer.forget.insertAfter candidate.tokensBefore .key
  let started :=
    if marked.inBlock then
      match marked.indent? candidate.column with
      | some indented => indented.insertAfter candidate.tokensBefore .blockMappingStart
      | none => marked
    else marked
  (started.allowKey false).pass 1 .value

/-- The colon before a value. -/
def value (lexer : Lexer) : Except Failure Lexer := do
  match lexer.candidate? with
  | some candidate => lexer.valueOf candidate
  | none =>
    if lexer.inBlock && !lexer.keyAllowed then fail "mapping values are not allowed here"
    let lexer := if lexer.inBlock then lexer.indentWith .blockMappingStart else lexer
    let lexer ← (lexer.allowKey lexer.inBlock).giveUp
    lexer.pass 1 .value

/-- The name of an anchor or alias, after its indicator. -/
def takeReference : Scan String := do
  advance 1
  let name ← takeName
  let next ← peek
  if isBlankOrEnd next || next.any "?:,]\x7d%@`".toList.contains then return name
  else malformed "expected alphabetic or numeric character"

/-- A token that may be the beginning of a key. -/
def property (lexer : Lexer) (scanner : Scan Token) : Except Failure Lexer := do
  let lexer ← lexer.propose
  let (token, lexer) ← (lexer.allowKey false).scan scanner
  return lexer.push token

/-- A scalar in a block. -/
def blockScalar (lexer : Lexer) (folded : Bool) (fuel : Nat) : Except Failure Lexer := do
  let lexer ← (lexer.allowKey true).giveUp
  let (text, lexer) ← lexer.scan (takeBlock folded lexer.indentation fuel)
  return lexer.push (.scalar text false)

/-- A plain scalar.  A key may begin behind it if it goes over the end of a line. -/
def plainScalar (lexer : Lexer) (fuel : Nat) : Except Failure Lexer := do
  let lexer ← lexer.propose
  let ((text, broken), lexer) ← lexer.scan (takePlain (!lexer.inBlock) lexer.indentation fuel)
  return (lexer.allowKey broken).push (.scalar text true)

/-- A character that a plain scalar cannot begin with. -/
def isIndicator (c : Char) : Bool :=
  isSpace c || isBreak c || ",[]\x7b\x7d#&*!|>'\"%@`".toList.contains c

/-- Does a blank follow the next character? -/
def beforeBlank (lexer : Lexer) : Except Failure Bool :=
  (lexer.scan (peekAt 1)).map fun (next, _) => isBlankOrEnd next

/-- Does a line that starts a document or ends one begin here? -/
def isAtMarker (lexer : Lexer) : Except Failure Bool :=
  if lexer.column == 0 then (lexer.scan atMarker).map Prod.fst else return false

/-- A marker of the start or the end of a document. -/
def marker (lexer : Lexer) (token : Token) : Except Failure Lexer := do
  let lexer ← lexer.closeDocument
  lexer.pass 3 token

/-- A directive. -/
def directive (lexer : Lexer) : Except Failure Lexer := do
  let lexer ← lexer.closeDocument
  let (directive, lexer) ← lexer.scan takeDirective
  return lexer.push (.directive directive)

/-- A plain scalar, unless none can begin with the next character. -/
def plainScalarFrom (lexer : Lexer) (fuel : Nat) (c : Char) : Except Failure Lexer := do
  if isIndicator c then
    let _ ← lexer.beforeBlank
    fail "found a character that cannot start any token"
  else lexer.plainScalar fuel

/-- The token that begins with this character. -/
def token (lexer : Lexer) (fuel : Nat) (c : Char) : Except Failure Lexer := do
  match c with
  | '[' => lexer.openFlow .flowSequenceStart
  | '{' => lexer.openFlow .flowMappingStart
  | ']' => lexer.closeFlow .flowSequenceEnd
  | '}' => lexer.closeFlow .flowMappingEnd
  | ',' => lexer.flowEntry
  | '*' => lexer.property (.alias <$> takeReference)
  | '&' => lexer.property (.anchor <$> takeReference)
  | '!' => lexer.property ((fun tag => .tag tag.1 tag.2) <$> takeTag)
  | '\'' => lexer.property ((.scalar · false) <$> takeQuoted false fuel)
  | '"' => lexer.property ((.scalar · false) <$> takeQuoted true fuel)
  | '-' =>
    if ← lexer.isAtMarker then lexer.marker .documentStart
    else if ← lexer.beforeBlank then lexer.blockEntry
    else lexer.plainScalar fuel
  | '.' =>
    if ← lexer.isAtMarker then lexer.marker .documentEnd else lexer.plainScalar fuel
  | '?' =>
    if !lexer.inBlock then lexer.markedKey
    else if ← lexer.beforeBlank then lexer.markedKey
    else lexer.plainScalar fuel
  | ':' =>
    if !lexer.inBlock then lexer.value
    else if ← lexer.beforeBlank then lexer.value
    else lexer.plainScalar fuel
  | '%' =>
    if lexer.column == 0 then lexer.directive else lexer.plainScalarFrom fuel c
  | '|' => if lexer.inBlock then lexer.blockScalar false fuel else lexer.plainScalarFrom fuel c
  | '>' => if lexer.inBlock then lexer.blockScalar true fuel else lexer.plainScalarFrom fuel c
  | _ => lexer.plainScalarFrom fuel c

/-! ## All tokens -/

/-- Cut off what comes next: a token, or the end of the text, which ends everything.  Tells whether
that was the end. -/
def fetch (lexer : Lexer) (fuel : Nat) : Except Failure (Bool × Lexer) := do
  let lexer ← lexer.skipBetween fuel
  let lexer ← lexer.dropStale
  let lexer := lexer.unwind lexer.column
  match lexer.cursor.rest with
  | [] => return (true, ← lexer.closeDocument)
  | c :: _ => return (false, ← (← lexer.token fuel c).dropStale)

/-- The tokens before the first candidate: those that no colon changes any more. -/
def settled (lexer : Lexer) : List Token :=
  let count := lexer.candidates.foldl (fun least entry => min least entry.2.tokensBefore)
    lexer.tokenCount
  lexer.tokens.reverse.take count

/-- Cut the rest of a text into tokens.  Gives the settled ones and the failure if that is not
possible.  Every token takes a character, so fuel for as many as are left is enough, and it is also
enough within a token and for the lines between two tokens. -/
def run : Nat → Lexer → List Token × Option Failure
  | 0, lexer => (lexer.settled, some (.malformed "the text is too long"))
  | fuel + 1, lexer =>
    match lexer.fetch fuel with
    | .error failure => (lexer.settled, some failure)
    | .ok (true, ended) => (ended.tokens.reverse, none)
    | .ok (false, longer) => run fuel longer

end Lexer

/-- The tokens that a source is cut into, and why it cannot be cut further.  A byte order mark in
front of the text is passed over. -/
def Token.ofSource (source : Source) : List Token × Option Failure :=
  let start := Lexer.start source
  let body := if source.text.head? == some byteOrderMark then
      { start with cursor := start.cursor.next }
    else start
  body.run (source.text.length + 2)

end ServiceManual.Yaml
