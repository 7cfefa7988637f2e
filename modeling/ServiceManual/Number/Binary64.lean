/-!
# Double precision numbers

A number of the IEEE format `binary64`, held as what it denotes: a sign, a significand and an
exponent of two.  Every finite number is built by `ofQuotient`, which rounds an exact quotient of
naturals to the nearest representable number, a tie to the even significand.  Reading a decimal
and adding or scaling are that one rounding applied to an exact result.
-/

namespace ServiceManual

/-- A double precision number.  A finite one denotes `± significand · 2 ^ exponent`; zero has a
sign too. -/
inductive Binary64
  | finite (negative : Bool) (significand : Nat) (exponent : Int)
  | infinite (negative : Bool)
  | nan
  deriving DecidableEq, Repr

namespace Binary64

/-- The exponent of the subnormal numbers. -/
def leastExponent : Int := -1074

/-- The exponent of the largest numbers. -/
def greatestExponent : Int := 971

/-- A quotient of naturals divided by `base ^ exponent`, again as a quotient. -/
def scaled (base num den : Nat) (exponent : Int) : Nat × Nat :=
  if 0 ≤ exponent then (num, den * Nat.pow base exponent.toNat)
  else (num * Nat.pow base (-exponent).toNat, den)

/-- The natural nearest to a quotient, a tie going to the even one. -/
def roundHalfEven (num den : Nat) : Nat :=
  let quotient := num / den
  let rest := num % den
  if den < 2 * rest || (2 * rest == den && quotient % 2 == 1) then quotient + 1 else quotient

/-- A number with this significand and exponent, or infinity when the exponent is too large. -/
def ofParts (negative : Bool) (significand : Nat) (exponent : Int) : Binary64 :=
  if greatestExponent < exponent then .infinite negative else .finite negative significand exponent

/-- The number nearest to a quotient of naturals. -/
def ofQuotient (negative : Bool) (num den : Nat) : Binary64 :=
  if num = 0 then .finite negative 0 leastExponent
  else
    let guess := max leastExponent ((num.log2 : Int) - (den.log2 : Int) - 53)
    let parts := scaled 2 num den guess
    let exponent := if Nat.pow 2 53 ≤ parts.1 / parts.2 then guess + 1 else guess
    let exact := scaled 2 num den exponent
    let significand := roundHalfEven exact.1 exact.2
    if significand = Nat.pow 2 53 then ofParts negative (Nat.pow 2 52) (exponent + 1)
    else ofParts negative significand exponent

/-- The number of decimal digits of a natural, one for zero. -/
def decimalLength (n : Nat) : Nat :=
  (Nat.toDigits 10 n).length

/-- The number nearest to `± digits · 10 ^ exponent`. -/
def ofDecimal (negative : Bool) (digits : Nat) (exponent : Int) : Binary64 :=
  let size := exponent + decimalLength digits
  if digits = 0 then .finite negative 0 leastExponent
  else if 400 < size then .infinite negative
  else if size < -400 then .finite negative 0 leastExponent
  else if 0 ≤ exponent then ofQuotient negative (digits * Nat.pow 10 exponent.toNat) 1
  else ofQuotient negative digits (Nat.pow 10 (-exponent).toNat)

/-- The number nearest to `value · 2 ^ exponent`. -/
def ofDyadic (value exponent : Int) : Binary64 :=
  if 0 ≤ exponent then ofQuotient (value < 0) (value.natAbs * Nat.pow 2 exponent.toNat) 1
  else ofQuotient (value < 0) value.natAbs (Nat.pow 2 (-exponent).toNat)

/-- A significand with its sign. -/
def signed (negative : Bool) (significand : Nat) : Int :=
  if negative then -(significand : Int) else significand

/-- The magnitude of a finite number as a quotient. -/
def quotient (significand : Nat) (exponent : Int) : Nat × Nat :=
  if 0 ≤ exponent then (significand * Nat.pow 2 exponent.toNat, 1)
  else (significand, Nat.pow 2 (-exponent).toNat)

/-- The number nearest to a natural, unless that is infinity. -/
def ofNat? (n : Nat) : Option Binary64 :=
  match ofQuotient false n 1 with
  | .infinite _ => none
  | number => some number

/-- Is the sign of a number, or of infinity, a minus? -/
def isNegative : Binary64 → Bool
  | .finite negative _ _ => negative
  | .infinite negative => negative
  | .nan => false

/-- Is the number zero, of either sign? -/
def isZero : Binary64 → Bool
  | .finite _ significand _ => significand == 0
  | _ => false

/-- The product of two numbers, rounded. -/
def mul (x y : Binary64) : Binary64 :=
  let negative := x.isNegative != y.isNegative
  match x, y with
  | .finite _ significand₁ exponent₁, .finite _ significand₂ exponent₂ =>
    let product := quotient (significand₁ * significand₂) (exponent₁ + exponent₂)
    ofQuotient negative product.1 product.2
  | .nan, _ => .nan
  | _, .nan => .nan
  | _, _ => if x.isZero || y.isZero then .nan else .infinite negative

/-- The sum of two numbers, rounded. -/
def add : Binary64 → Binary64 → Binary64
  | .finite negative₁ significand₁ exponent₁, .finite negative₂ significand₂ exponent₂ =>
    let low := min exponent₁ exponent₂
    let shift (significand exponent : Int) : Int :=
      significand * (Nat.pow 2 (exponent - low).toNat : Nat)
    ofDyadic (shift (signed negative₁ significand₁) exponent₁ +
      shift (signed negative₂ significand₂) exponent₂) low
  | .nan, _ => .nan
  | _, .nan => .nan
  | .infinite negative₁, .infinite negative₂ =>
    if negative₁ = negative₂ then .infinite negative₁ else .nan
  | .infinite negative, _ => .infinite negative
  | _, .infinite negative => .infinite negative

/-- The number with the other sign. -/
def negate : Binary64 → Binary64
  | .finite negative significand exponent => .finite (!negative) significand exponent
  | .infinite negative => .infinite (!negative)
  | .nan => .nan

/-- The integer that a finite number without fractional part denotes. -/
def toInt? : Binary64 → Option Int
  | .finite negative significand exponent =>
    if 0 ≤ exponent then some (signed negative (significand * Nat.pow 2 exponent.toNat))
    else if significand % Nat.pow 2 (-exponent).toNat = 0 then
      some (signed negative (significand / Nat.pow 2 (-exponent).toNat))
    else none
  | .infinite _ => none
  | .nan => none

end Binary64

end ServiceManual
