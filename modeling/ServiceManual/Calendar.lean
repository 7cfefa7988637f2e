/-!
# Dates and moments

A date of the calendar, and a moment: a date with a time of day and possibly the offset of its
place from universal time.  Moments with offsets are compared by when they are, wherever that is.
-/

namespace ServiceManual

/-- A date. -/
structure Date where
  year : Nat
  month : Nat
  day : Nat
  deriving DecidableEq, Repr

/-- A time on a date; the offset from universal time is in minutes. -/
structure Moment where
  date : Date
  hour : Nat
  minute : Nat
  second : Nat
  microsecond : Nat
  offset : Option Int
  deriving DecidableEq, Repr

/-! ## Calendar -/

namespace Date

/-- A year with a leap day. -/
def isLeapYear (year : Nat) : Bool :=
  year % 4 == 0 && (year % 100 != 0 || year % 400 == 0)

/-- The number of days of a month. -/
def daysOfMonth (year month : Nat) : Nat :=
  if month = 2 then if isLeapYear year then 29 else 28
  else if [4, 6, 9, 11].contains month then 30
  else 31

/-- The number of days of the calendar up to a date. -/
def dayNumber (date : Date) : Nat :=
  let before := date.year - 1
  365 * before + before / 4 - before / 100 + before / 400 +
    (List.range (date.month - 1)).foldl (fun days month => days + daysOfMonth date.year (month + 1))
      date.day

/-- Why a date does not exist. -/
def problem? (date : Date) : Option String :=
  if date.year = 0 then some "year 0 is out of range"
  else if date.month = 0 || 12 < date.month then some "month must be in 1..12"
  else if date.day = 0 || daysOfMonth date.year date.month < date.day then
    some "day is out of range for month"
  else none

end Date

/-! ## Texts -/

/-- A number with at least this many digits. -/
def paddedNumber (length n : Nat) : String :=
  let digits := Nat.toDigits 10 n
  String.ofList (List.replicate (length - digits.length) '0' ++ digits)

namespace Date

/-- The text of a date. -/
def text (date : Date) : String :=
  paddedNumber 4 date.year ++ "-" ++ paddedNumber 2 date.month ++ "-" ++ paddedNumber 2 date.day

/-- The numbers of a date. -/
def numbers (date : Date) : List Nat :=
  [date.year, date.month, date.day]

/-- A date as an expression that makes it. -/
def expression (date : Date) : String :=
  "datetime.date(" ++ ", ".intercalate (date.numbers.map toString) ++ ")"

end Date

/-- A length of time in minutes, as an expression that makes it: whole days, possibly negative,
and then seconds. -/
def durationExpression (minutes : Int) : String :=
  let days := minutes.fdiv 1440
  let seconds := 60 * minutes.fmod 1440
  let parts := (if days = 0 then [] else ["days=" ++ toString days]) ++
    (if seconds = 0 then [] else ["seconds=" ++ toString seconds])
  "datetime.timedelta(" ++ (if parts.isEmpty then "0" else ", ".intercalate parts) ++ ")"

namespace Moment

/-- The number of microseconds up to a moment, in universal time if its offset is known. -/
def instant (moment : Moment) : Int :=
  let minutes : Int := 1440 * moment.date.dayNumber + 60 * moment.hour + moment.minute
  (60 * (minutes - moment.offset.getD 0) + moment.second) * 1000000 + moment.microsecond

/-- The same moment: both with an offset or both without, and at one time. -/
def isSame (a b : Moment) : Bool :=
  a.offset.isSome == b.offset.isSome && a.instant == b.instant

/-- The text of an offset. -/
def offsetText (minutes : Int) : String :=
  (if minutes < 0 then "-" else "+") ++ paddedNumber 2 (minutes.natAbs / 60) ++ ":" ++
    paddedNumber 2 (minutes.natAbs % 60)

/-- The text of a moment. -/
def text (moment : Moment) : String :=
  moment.date.text ++ " " ++ paddedNumber 2 moment.hour ++ ":" ++
    paddedNumber 2 moment.minute ++ ":" ++ paddedNumber 2 moment.second ++
    (if moment.microsecond = 0 then "" else "." ++ paddedNumber 6 moment.microsecond) ++
    (moment.offset.map offsetText).getD ""

/-- An offset as an expression that makes it. -/
def offsetExpression (minutes : Int) : String :=
  if minutes = 0 then "datetime.timezone.utc"
  else "datetime.timezone(" ++ durationExpression minutes ++ ")"

/-- A moment as an expression that makes it. -/
def expression (moment : Moment) : String :=
  let fine := if moment.microsecond = 0 then
      if moment.second = 0 then [] else [moment.second]
    else [moment.second, moment.microsecond]
  let numbers := moment.date.numbers ++ [moment.hour, moment.minute] ++ fine
  let zone := (moment.offset.map fun offset => ["tzinfo=" ++ offsetExpression offset]).getD []
  "datetime.datetime(" ++ ", ".intercalate (numbers.map toString ++ zone) ++ ")"

/-- Why a moment does not exist.  Its offset is looked at first. -/
def problem? (moment : Moment) : Option String :=
  if moment.offset.any fun offset => 1440 ≤ offset.natAbs then
    some ("offset must be a timedelta strictly between -timedelta(hours=24) and " ++
      "timedelta(hours=24), not " ++ durationExpression (moment.offset.getD 0) ++ ".")
  else moment.date.problem?.or
    (if 24 ≤ moment.hour then some "hour must be in 0..23"
    else if 60 ≤ moment.minute then some "minute must be in 0..59"
    else if 60 ≤ moment.second then some "second must be in 0..59"
    else none)

theorem isSame_self (moment : Moment) : moment.isSame moment = true := by
  simp [isSame]

end Moment

end ServiceManual
