import ServiceManual.Number.Binary64

/-!
# The shortest decimal text of a number

A double precision number is written with the fewest decimal digits that read back as the same
number; of the decimals with that many digits, the nearest one.  Only two decimals of each length
come into question, the neighbours of the exact value on the decimal grid of that length, so the
search tries lengths from one upward and both neighbours at each.

The layout: positional when the first digit stands between the fourth place after the point and
the sixteenth before it, always with a digit on each side of the point; otherwise one digit, a
fraction if there are more digits, and an exponent of at least two digits with its sign.
-/

namespace ServiceManual.Binary64

/-- A decimal: its digits read as a natural, and the power of ten of the last digit. -/
structure Decimal where
  digits : Nat
  exponent : Int
  deriving DecidableEq, Repr

/-- The place of the first digit of a positive quotient: the `k` with
`10 ^ (k - 1) ≤ num / den < 10 ^ k`. -/
def firstPlace (num den : Nat) : Int :=
  if den ≤ num then decimalLength (num / den)
  else
    let places := decimalLength (den / num) - 1
    if den ≤ num * Nat.pow 10 places then 1 - places else -places

/-- Of the two neighbours of a quotient on the grid of a power of ten, the nearest that reads back
as `x`. -/
def onGrid? (x : Binary64) (negative : Bool) (num den : Nat) (exponent : Int) : Option Decimal :=
  let scaled := scaled 10 num den exponent
  let low := scaled.1 / scaled.2
  let rest := scaled.1 % scaled.2
  let readsBack (digits : Nat) : Bool := ofDecimal negative digits exponent == x
  let lowFirst := 2 * rest < scaled.2 || (2 * rest == scaled.2 && low % 2 == 0)
  let first := if lowFirst then low else low + 1
  let second := if lowFirst then low + 1 else low
  if readsBack first then some ⟨first, exponent⟩
  else if readsBack second then some ⟨second, exponent⟩
  else none

/-- Search the grids for `length`, `length + 1`, … digits, `fuel` of them. -/
def searchGrids (x : Binary64) (negative : Bool) (num den : Nat) :
    (fuel length : Nat) → Decimal
  | 0, _ => ⟨0, 0⟩
  | fuel + 1, length =>
    match onGrid? x negative num den (firstPlace num den - length) with
    | some decimal => decimal
    | none => searchGrids x negative num den fuel (length + 1)

/-- The digits of a decimal without trailing zeros, and the place of the point counted from
before the first digit. -/
def Decimal.layout (d : Decimal) : List Char × Int :=
  let digits := Nat.toDigits 10 d.digits
  let significant := (digits.reverse.dropWhile (· == '0')).reverse
  (significant, d.exponent + digits.length)

/-- Write digits with the point at a place. -/
def layOut (digits : List Char) (place : Int) : List Char :=
  if -4 < place ∧ place ≤ 16 then
    if place ≤ 0 then "0.".toList ++ List.replicate (-place).toNat '0' ++ digits
    else
      let before := digits.take place.toNat
      let after := digits.drop place.toNat
      before ++ List.replicate (place.toNat - before.length) '0' ++ ['.'] ++
        (if after.isEmpty then ['0'] else after)
  else
    let exponent := place - 1
    let size := Nat.toDigits 10 exponent.natAbs
    digits.take 1 ++ (if digits.length ≤ 1 then [] else '.' :: digits.drop 1) ++
      ['e', if exponent < 0 then '-' else '+'] ++
      (if size.length < 2 then '0' :: size else size)

/-- The text of a number. -/
def text : Binary64 → String
  | .nan => "nan"
  | .infinite negative => if negative then "-inf" else "inf"
  | .finite negative significand exponent =>
    let magnitude :=
      if significand = 0 then ['0', '.', '0']
      else
        let parts := quotient significand exponent
        let x : Binary64 := .finite negative significand exponent
        let found := (searchGrids x negative parts.1 parts.2 17 1).layout
        layOut found.1 found.2
    String.ofList (if negative then '-' :: magnitude else magnitude)

end ServiceManual.Binary64
