import ServiceManual.Number.Numeral
import ServiceManual.Text.DecimalDigit
import ServiceManual.Text.Lowercase
import ServiceManual.Text.Pieces
import ServiceManual.Text.Quoted
import ServiceManual.Yaml.Resolution

/-!
# YAML numbers

The number that the text of a scalar denotes once its tag says that it is one.  Underscores do not
count.  One sign in front belongs to the number as a whole; behind it an integer is binary, octal,
hexadecimal or decimal, or, like a real, made of parts of sixty between colons.  Each part is a
literal of its own, which may carry white space, another sign, and the digits of any script.
-/

namespace ServiceManual.Yaml

/-- Apply a sign to a value. -/
def applySign {α : Type} (negate : α → α) (text : List Char) (value : α) : α :=
  if text.head? == some '-' then negate value else value

/-! ## Integers -/

/-- The letter that may stand behind a zero in front of the digits of a base. -/
def baseLetter? (base : Nat) : Option Char :=
  if base = 2 then some 'b' else if base = 8 then some 'o' else if base = 16 then some 'x' else none

/-- Digits without the mark of their base in front. -/
def withoutBaseMark (base : Nat) (s : List Char) : List Char :=
  match s with
  | '0' :: letter :: rest => if baseLetter? base == some letter.toLower then rest else s
  | _ => s

/-- The natural that digits denote in a base, unless there are none or others among them. -/
def natOfDigits? (base : Nat) (digits : List Char) : Option Nat :=
  if digits.isEmpty then none
  else digits.foldl (fun value c => do
    let value ← value
    let digit ← hexValue? c
    if digit < base then some (base * value + digit) else none) (some 0)

/-- A text is no integer in a base.  Only the beginning of a long text is shown. -/
def noInteger (base : Nat) (s : List Char) : Failure :=
  .impossible ("invalid literal for int() with base " ++ toString base ++ ": " ++
    String.ofList ((Text.quoted (String.ofList s)).toList.take 200))

/-- The integer that a literal denotes in a base.  The number of decimal digits is limited. -/
def integerLiteral (base : Nat) (s : List Char) : Except Failure Int :=
  let (negative, unsigned) := Numeral.splitSign ((Text.trim s).map Text.asciiDigit)
  let digits := withoutBaseMark base unsigned
  let length := if base = 10 then (digits.takeWhile Char.isDigit).length else 0
  match Numeral.lengthProblem? length, natOfDigits? base digits with
  | some problem, _ => .error (.impossible problem)
  | none, some value => .ok (Binary64.signed negative value)
  | none, none => .error (noInteger base s)

/-- The integer that parts of sixty denote. -/
def sixtieths (parts : List Int) : Int :=
  parts.foldl (fun value part => 60 * value + part) 0

/-- The integer that a text without its sign denotes. -/
def unsignedInteger : List Char → Except Failure Int
  | [] => .error .emptyNumber
  | ['0'] => .ok 0
  | '0' :: 'b' :: digits => integerLiteral 2 digits
  | '0' :: 'x' :: digits => integerLiteral 16 digits
  | '0' :: digits => integerLiteral 8 ('0' :: digits)
  | body => ((Text.splitOn ':' body).mapM (integerLiteral 10)).map sixtieths

/-- The integer that a scalar denotes. -/
def integerOf (text : String) : Except Failure Int :=
  let s := text.toList.filter (· != '_')
  (unsignedInteger (Tag.unsigned s)).map (applySign Int.neg s)

/-! ## Reals -/

/-- The real that a literal denotes. -/
def realLiteral (s : List Char) : Except Failure Binary64 :=
  match Numeral.plainDecimal? ((Text.trim s).map Text.asciiDigit) with
  | some real => .ok real
  | none => .error (.impossible
      ("could not convert string to float: " ++ Text.quoted (String.ofList s)))

/-- The real that parts of sixty denote, given from the last to the first: a part counts by a power
of sixty, rounded, and the sum is rounded after each part. -/
def sixtiethsReal : Nat → Binary64 → List Binary64 → Except Failure Binary64
  | _, total, [] => .ok total
  | unit, total, part :: before =>
    match Binary64.ofNat? unit with
    | some weight => sixtiethsReal (60 * unit) (total.add (part.mul weight)) before
    | none => .error (.oversized "int too large to convert to float")

/-- The real that a text without its sign denotes. -/
def unsignedReal (body : List Char) : Except Failure Binary64 :=
  if body == ".inf".toList then .ok (.infinite false)
  else if body == ".nan".toList then .ok .nan
  else if body.contains ':' then do
    let parts ← (Text.splitOn ':' body).mapM realLiteral
    sixtiethsReal 1 (.finite false 0 Binary64.leastExponent) parts.reverse
  else realLiteral body

/-- The real that a scalar denotes. -/
def realOf (text : String) : Except Failure Binary64 :=
  let s := (Text.lowercase (String.ofList (text.toList.filter (· != '_')))).toList
  if s.isEmpty then .error .emptyNumber
  else (unsignedReal (Tag.unsigned s)).map (applySign Binary64.negate s)

end ServiceManual.Yaml
