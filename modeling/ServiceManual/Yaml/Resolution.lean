import ServiceManual.Text.Pieces
import ServiceManual.Yaml.Timestamp

/-!
# What a plain scalar is

A scalar without quotes and without a tag is given the tag of the first kind whose form its text
has: a truth value, a real, an integer, the mark of a merge, null, a date, the mark of a value; a
text if none fits.  One line feed at the end of a text makes no difference to its form.
-/

namespace ServiceManual.Yaml

namespace Tag

/-- What the names of the standard tags begin with. -/
def standard : String := "tag:yaml.org,2002:"

/-- The tag of null. -/
def null : String := "tag:yaml.org,2002:null"

/-- The tag of truth values. -/
def bool : String := "tag:yaml.org,2002:bool"

/-- The tag of integers. -/
def int : String := "tag:yaml.org,2002:int"

/-- The tag of reals. -/
def float : String := "tag:yaml.org,2002:float"

/-- The tag of dates. -/
def timestamp : String := "tag:yaml.org,2002:timestamp"

/-- The tag of bytes. -/
def binary : String := "tag:yaml.org,2002:binary"

/-- The tag of texts. -/
def str : String := "tag:yaml.org,2002:str"

/-- The tag of sequences. -/
def seq : String := "tag:yaml.org,2002:seq"

/-- The tag of mappings. -/
def map : String := "tag:yaml.org,2002:map"

/-- The tag of sets. -/
def set : String := "tag:yaml.org,2002:set"

/-- The tag of mappings whose order counts. -/
def omap : String := "tag:yaml.org,2002:omap"

/-- The tag of pairs. -/
def pairs : String := "tag:yaml.org,2002:pairs"

/-- The tag of the key under which a mapping takes over the entries of others. -/
def merge : String := "tag:yaml.org,2002:merge"

/-- The tag of the key that marks the value of a mapping. -/
def value : String := "tag:yaml.org,2002:value"

/-! ## Forms -/

/-- A text without a sign in front. -/
def unsigned : List Char → List Char
  | '-' :: rest => rest
  | '+' :: rest => rest
  | rest => rest

/-- A digit or an underscore. -/
def isDigitOrLine (c : Char) : Bool :=
  c.isDigit || c == '_'

/-- A digit, and then digits and underscores. -/
def isGroupedDigits : List Char → Bool
  | [] => false
  | c :: rest => c.isDigit && rest.all isDigitOrLine

/-- A digit other than zero, and then digits and underscores. -/
def isGroupedNumber (s : List Char) : Bool :=
  isGroupedDigits s && s.head? != some '0'

/-- One digit, or two of which the first is at most five. -/
def isSixtieth : List Char → Bool
  | [c] => c.isDigit
  | [c, d] => '0' ≤ c && c ≤ '5' && d.isDigit
  | _ => false

/-- A word for a truth value. -/
def isFlagWord (text : String) : Bool :=
  ["yes", "Yes", "YES", "no", "No", "NO", "true", "True", "TRUE", "false", "False", "FALSE",
    "on", "On", "ON", "off", "Off", "OFF"].contains text

/-- A word for null. -/
def isNullWord (text : String) : Bool :=
  ["", "~", "null", "Null", "NULL"].contains text

/-- Nothing, or an exponent with a sign. -/
def isExponent : List Char → Bool
  | [] => true
  | mark :: sign :: digits =>
    (mark == 'e' || mark == 'E') && (sign == '-' || sign == '+') && !digits.isEmpty &&
      digits.all Char.isDigit
  | _ => false

/-- A fraction after its point, with an exponent or none. -/
def isFraction (s : List Char) : Bool :=
  isExponent (s.dropWhile isDigitOrLine)

/-- A real: with digits before the point or only after it, in parts of sixty, or one of the names
of infinity and of the number that is none. -/
def isReal (s : List Char) : Bool :=
  let body := unsigned s
  let whole := body.takeWhile (· != '.')
  match body.dropWhile (· != '.') with
  | [] => false
  | _ :: fraction =>
    (isGroupedDigits whole && isFraction fraction) ||
      (s.head? == some '.' && isGroupedDigits (fraction.takeWhile isDigitOrLine) &&
        isFraction fraction) ||
      ((match Text.splitOn ':' whole with
          | first :: part :: parts => isGroupedDigits first && (part :: parts).all isSixtieth
          | _ => false) && fraction.all isDigitOrLine) ||
      (whole.isEmpty && ["inf", "Inf", "INF"].contains (String.ofList fraction)) ||
      (s.head? == some '.' && ["nan", "NaN", "NAN"].contains (String.ofList fraction))

/-- An integer: binary, octal, decimal, hexadecimal, or in parts of sixty. -/
def isInteger (s : List Char) : Bool :=
  let body := unsigned s
  match body with
  | ['0'] => true
  | '0' :: 'b' :: digits =>
    !digits.isEmpty && digits.all fun c => c == '0' || c == '1' || c == '_'
  | '0' :: 'x' :: digits =>
    !digits.isEmpty && digits.all fun c => (hexValue? c).isSome || c == '_'
  | '0' :: digits => digits.all fun c => ('0' ≤ c && c ≤ '7') || c == '_'
  | _ =>
    isGroupedNumber body ||
      match Text.splitOn ':' body with
      | first :: part :: parts => isGroupedNumber first && (part :: parts).all isSixtieth
      | _ => false

/-- A date in full, or one with a time of day. -/
def isDate (s : List Char) : Bool :=
  (Timestamp.ofText? s).any fun date => date.full || date.moment.isSome

/-- A text without one line feed at its end, unless it is nothing else. -/
def withoutFeed (s : List Char) : List Char :=
  if s.getLast? == some '\n' && 1 < s.length then s.dropLast else s

/-- The tag of a plain scalar. -/
def ofPlain (text : String) : String :=
  let s := withoutFeed text.toList
  let word := String.ofList s
  if isFlagWord word then bool
  else if isReal s then float
  else if isInteger s then int
  else if word == "<<" then merge
  else if isNullWord word then null
  else if isDate s then timestamp
  else if word == "=" then value
  else str

end Tag

end ServiceManual.Yaml
