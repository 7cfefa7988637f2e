import ServiceManual.Number.Binary64
import ServiceManual.Text.Blank

/-!
# Numerals in text

Where a number is expected a text may stand for it.  This module reads such texts: integers with
grouping underscores and a fraction of zeros, and decimals with a fraction and an exponent.

An integer is read in two steps: what has no bearing on its value is taken away, and what is left
has to be digits behind a minus or none.  Zeros in front are taken away together with underscores
between them, and a minus may stand behind them.
-/

namespace ServiceManual.Numeral

/-- The natural that the digits of a text denote, other characters left out. -/
def digitValue (s : List Char) : Nat :=
  s.foldl (fun n c => if c.isDigit then 10 * n + (c.toNat - '0'.toNat) else n) 0

/-- The sign in front of a text, `true` for a minus, and the rest. -/
def splitSign : List Char → Bool × List Char
  | '-' :: rest => (true, rest)
  | '+' :: rest => (false, rest)
  | rest => (false, rest)

/-- Underscores that neither begin nor end a text nor stand side by side. -/
def hasLoneUnderscores (s : List Char) : Bool :=
  s.head? != some '_' && s.getLast? != some '_' &&
    !(s.zip s.tail).any fun pair => pair.1 == '_' && pair.2 == '_'

/-- A text without underscores, unless they stand at its ends or side by side. -/
def ungrouped? (s : List Char) : Option (List Char) :=
  if hasLoneUnderscores s then some (s.filter (· != '_')) else none

/-! ## Integers -/

/-- Why a text is not taken for an integer. -/
inductive Refusal
  | unreadable
  | oversized
  deriving DecidableEq, Repr

/-- The greatest number of digits of an integer that is read. -/
def digitLimit : Nat := 4300

/-- What is said about a row of this many digits, if they are too many. -/
def lengthProblem? (length : Nat) : Option String :=
  if digitLimit < length then
    some ("Exceeds the limit (4300 digits) for integer string conversion: value has " ++
      toString length ++ " digits; use sys.set_int_max_str_digits() to increase the limit")
  else none

/-- A text without zeros in front, as long as digits follow. -/
def withoutZeros? : List Char → Option (List Char)
  | [] => none
  | first :: rest =>
    if first = '0' then
      let zeros := rest.takeWhile fun c => c == '0' || c == '_'
      match rest.drop zeros.length with
      | [] => some [zeros.getLastD '0']
      | c :: tail =>
        if c = '.' then some (zeros.getLastD '0' :: c :: tail)
        else if c.isDigit || c = '-' then some (c :: tail)
        else none
    else if first.isDigit || first = '-' then some (first :: rest)
    else none

/-- A text without a point and one or more zeros at its end. -/
def withoutZeroFraction (s : List Char) : List Char :=
  match s.dropWhile (· != '.') with
  | _ :: zeros =>
    if !zeros.isEmpty && zeros.all (· == '0') then s.takeWhile (· != '.') else s
  | [] => s

/-- What is left of a text when all is taken away that has no bearing on the integer. -/
def essence? (s : List Char) : Option (List Char) :=
  let trimmed := Text.trim s
  let unsigned := match trimmed with
    | '+' :: rest => if rest.head? == some '-' then trimmed else rest
    | _ => trimmed
  match unsigned with
  | '-' :: rest =>
    (withoutZeros? rest).bind fun digits => ungrouped? ('-' :: withoutZeroFraction digits)
  | rest => (withoutZeros? rest).bind fun digits => ungrouped? (withoutZeroFraction digits)

/-- A text without a minus in front. -/
def afterMinus : List Char → List Char
  | '-' :: rest => rest
  | rest => rest

/-- Does a text begin with more digits than are read? -/
def isOversized (s : List Char) : Bool :=
  let digits := (afterMinus s).takeWhile Char.isDigit
  digits.head? != some '0' && digitLimit < digits.length

/-- Digits behind a minus or none; zero only alone. -/
def isPlainInteger (s : List Char) : Bool :=
  let digits := afterMinus s
  !digits.isEmpty && digits.all Char.isDigit && (digits.head? != some '0' || digits.length == 1)

/-- The integer that a text spells. -/
def integer (s : List Char) : Except Refusal Int :=
  if isOversized s then .error .oversized
  else match essence? s with
    | none => .error .unreadable
    | some digits =>
      if isOversized digits then .error .oversized
      else if isPlainInteger digits then
        .ok (Binary64.signed (digits.head? == some '-') (digitValue digits))
      else .error .unreadable

/-! ## Decimals -/

/-- The power of ten that an exponent part denotes; the empty part denotes zero. -/
def exponent? : List Char → Option Int
  | [] => some 0
  | c :: rest =>
    if c == 'e' || c == 'E' then
      let (negative, digits) := splitSign rest
      if !digits.isEmpty && digits.all Char.isDigit then
        some (Binary64.signed negative (digitValue digits))
      else none
    else none

/-- A decimal without sign: digits, a point and digits of which at least one is there, and
possibly an exponent. -/
def magnitude? (negative : Bool) (s : List Char) : Option Binary64 :=
  let whole := s.takeWhile Char.isDigit
  let rest := s.dropWhile Char.isDigit
  let (fraction, tail) := match rest with
    | '.' :: more => (more.takeWhile Char.isDigit, more.dropWhile Char.isDigit)
    | other => ([], other)
  if whole.isEmpty && fraction.isEmpty then none
  else (exponent? tail).map fun exponent =>
    Binary64.ofDecimal negative (digitValue (whole ++ fraction)) (exponent - fraction.length)

/-- A decimal, or a name of infinity or of the number that is none, in any letter case. -/
def plainDecimal? (s : List Char) : Option Binary64 :=
  let (negative, rest) := splitSign s
  let word := String.ofList (rest.map Char.toLower)
  if word == "inf" || word == "infinity" then some (.infinite negative)
  else if word == "nan" then some .nan
  else magnitude? negative rest

/-- The decimal that a text spells.  White space around it is passed over, or grouping underscores
in it, but not both. -/
def decimal? (s : List Char) : Option Binary64 :=
  (plainDecimal? (Text.trim s)).or ((ungrouped? s).bind plainDecimal?)

end ServiceManual.Numeral
