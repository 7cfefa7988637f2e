import ServiceManual.Calendar
import ServiceManual.Number.Numeral
import ServiceManual.Yaml.Cursor

/-!
# Dates in YAML

A scalar may be a date, or a date with a time of day, a fraction of a second, and an offset from
universal time.
-/

namespace ServiceManual.Yaml

/-- A date as it is written, whether it exists or not. -/
structure Timestamp where
  date : Date
  /-- Do month and day have two digits each? -/
  full : Bool
  /-- The moment, if a time of day is written. -/
  moment : Option Moment
  deriving DecidableEq, Repr

namespace Timestamp

/-- Between `least` and `most` digits in front of a text, as many as there are, and the rest. -/
def digits? (least most : Nat) (s : List Char) : Option (Nat × List Char) :=
  let digits := (s.take most).takeWhile Char.isDigit
  if least ≤ digits.length then some (Numeral.digitValue digits, s.drop digits.length) else none

/-- A text after a character. -/
def after? (c : Char) : List Char → Option (List Char)
  | [] => none
  | d :: rest => if c = d then some rest else none

/-- The offset in minutes that is the rest of a text, if there is one. -/
def offset? (s : List Char) : Option (Option Int) :=
  match s, s.dropWhile isSpace with
  | [], _ => some none
  | _, ['Z'] => some (some 0)
  | _, sign :: rest =>
    if sign = '+' || sign = '-' then do
      let (hours, rest) ← digits? 1 2 rest
      match rest with
      | [] => return some (Binary64.signed (sign = '-') (60 * hours))
      | _ =>
        let rest ← after? ':' rest
        let (minutes, rest) ← digits? 2 2 rest
        if rest.isEmpty then return some (Binary64.signed (sign = '-') (60 * hours + minutes))
        else none
    else none
  | _, [] => none

/-- The millionths that the digits of a fraction denote. -/
def microseconds (fraction : List Char) : Nat :=
  let digits := fraction.take 6
  Numeral.digitValue (digits ++ List.replicate (6 - digits.length) '0')

/-- The moment on a date whose time of day is the rest of a text. -/
def moment? (date : Date) (s : List Char) : Option Moment := do
  let rest ← match s with
    | 'T' :: rest => some rest
    | 't' :: rest => some rest
    | _ =>
      let rest := s.dropWhile isSpace
      if rest.length < s.length then some rest else none
  let (hour, rest) ← digits? 1 2 rest
  let rest ← after? ':' rest
  let (minute, rest) ← digits? 2 2 rest
  let rest ← after? ':' rest
  let (second, rest) ← digits? 2 2 rest
  let (fraction, rest) := match rest with
    | '.' :: more => (more.takeWhile Char.isDigit, more.dropWhile Char.isDigit)
    | _ => ([], rest)
  let offset ← offset? rest
  return ⟨date, hour, minute, second, microseconds fraction, offset⟩

/-- The date that a text spells. -/
def ofText? (s : List Char) : Option Timestamp := do
  let (year, rest) ← digits? 4 4 s
  let afterYear ← after? '-' rest
  let (month, rest) ← digits? 1 2 afterYear
  let afterMonth ← after? '-' rest
  let (day, rest) ← digits? 1 2 afterMonth
  let full := s.length - rest.length == "2000-01-01".length
  let date : Date := ⟨year, month, day⟩
  if rest.isEmpty then return ⟨date, full, none⟩
  else return ⟨date, full, some (← moment? date rest)⟩

end Timestamp

end ServiceManual.Yaml
