/-!
# The words of an identifier

An identifier is split into words at its separators, which are all characters other than ASCII
letters and digits, and at its case boundaries.  There are two kinds of case boundary: before a
capital that follows a small letter or a digit, and before a capital that follows a capital and is
followed by a small letter, so that an acronym is one word.  The boundaries are marked with a
space, one kind after the other, and the marked text is split at its separators.

The words can be put together again in four ways, the casings.
-/

namespace ServiceManual.Words

/-- A character that can stand in a word. -/
def isWordChar (c : Char) : Bool :=
  c.isAlphanum

/-- Mark the boundaries between a small letter or digit and a capital. -/
def markCapitals : List Char → List Char
  | a :: b :: rest =>
    if (a.isLower || a.isDigit) && b.isUpper then a :: ' ' :: b :: markCapitals rest
    else a :: markCapitals (b :: rest)
  | rest => rest

/-- Mark the boundaries between a capital and a capital with a small letter after it. -/
def markAcronyms : List Char → List Char
  | a :: b :: c :: rest =>
    if a.isUpper && b.isUpper && c.isLower then a :: ' ' :: b :: c :: markAcronyms rest
    else a :: markAcronyms (b :: c :: rest)
  | rest => rest

/-- The pieces between separators, empty ones included.  There is always a first piece. -/
def pieces : List Char → List (List Char)
  | [] => [[]]
  | c :: rest =>
    if isWordChar c then
      match pieces rest with
      | [] => [[c]]
      | piece :: more => (c :: piece) :: more
    else [] :: pieces rest

/-- The words of an identifier. -/
def split (s : List Char) : List (List Char) :=
  (pieces (markAcronyms (markCapitals s))).filter fun piece => !piece.isEmpty

/-! ## Casings -/

/-- A word in small letters. -/
def lower (word : List Char) : List Char :=
  word.map Char.toLower

/-- A word with a capital first and small letters after it. -/
def capitalize : List Char → List Char
  | [] => []
  | c :: rest => c.toUpper :: lower rest

/-- All words capitalized, without separator. -/
def pascal (s : List Char) : List Char :=
  ((split s).map capitalize).flatten

/-- The first word in small letters and the others capitalized, without separator. -/
def camel (s : List Char) : List Char :=
  match split s with
  | [] => []
  | word :: rest => lower word ++ (rest.map capitalize).flatten

/-- All words in small letters, joined by hyphens. -/
def kebab (s : List Char) : List Char :=
  ['-'].intercalate ((split s).map lower)

/-- All words capitalized, joined by spaces. -/
def title (s : List Char) : List Char :=
  [' '].intercalate ((split s).map capitalize)

end ServiceManual.Words
