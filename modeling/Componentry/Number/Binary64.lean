/-!
# Binary64 numbers in exact arithmetic

A finite number of the format binary64 is `± mantissa · 2 ^ exponent`.  Every operation here is
exact arithmetic on natural numbers followed by one rounding: `ofRatio` rounds a quotient to the
nearest representable number, a tie going to the even mantissa, and answers nothing when the
result is too large.  Sums are not needed; products and quotients are, because scaled decimal
numerals and durations are computed with them.
-/

namespace Componentry

/-- A finite binary64 number.  In the numbers that `ofRatio` returns the mantissa has at most 53
bits, the exponent is at least −1074, and a shorter mantissa occurs with that exponent only. -/
structure Binary64 where
  negative : Bool
  mantissa : Nat
  exponent : Int
  deriving DecidableEq, Repr

namespace Binary64

/-- The quotient of two natural numbers rounded to the nearest, ties to even. -/
def roundHalfEven (num den : Nat) : Nat :=
  let floor := num / den
  let twice := 2 * (num % den)
  if twice < den then floor
  else if den < twice then floor + 1
  else if floor % 2 = 0 then floor else floor + 1

/-- The exponent `e` with `2 ^ e ≤ num / den < 2 ^ (e + 1)`, for positive arguments. -/
def floorLog (num den : Nat) : Int :=
  let estimate : Int := (num.log2 : Int) - den.log2
  let reached :=
    if 0 ≤ estimate then den * Nat.pow 2 estimate.toNat ≤ num else den ≤ num * Nat.pow 2 (-estimate).toNat
  if reached then estimate else estimate - 1

/-- Zero with a sign. -/
def zero (negative : Bool) : Binary64 := ⟨negative, 0, -1074⟩

/-- The number nearest to `± num / den`; nothing when it would be too large. -/
def ofRatio (negative : Bool) (num den : Nat) : Option Binary64 :=
  if num = 0 then some (zero negative)
  else
    let unit : Int := max (floorLog num den - 52) (-1074)
    let mantissa :=
      if 0 ≤ unit then roundHalfEven num (den * Nat.pow 2 unit.toNat)
      else roundHalfEven (num * Nat.pow 2 (-unit).toNat) den
    let rounded : Binary64 :=
      if mantissa = Nat.pow 2 53 then ⟨negative, Nat.pow 2 52, unit + 1⟩ else ⟨negative, mantissa, unit⟩
    if rounded.exponent ≤ 971 then some rounded else none

/-- The magnitude as a quotient. -/
def toRatio (x : Binary64) : Nat × Nat :=
  if 0 ≤ x.exponent then (x.mantissa * Nat.pow 2 x.exponent.toNat, 1)
  else (x.mantissa, Nat.pow 2 (-x.exponent).toNat)

/-- The number nearest to a natural number. -/
def ofNat (n : Nat) : Option Binary64 := ofRatio false n 1

/-- The number nearest to an integer. -/
def ofInt (i : Int) : Option Binary64 := ofRatio (i < 0) i.natAbs 1

/-- The rounded product. -/
def mul (x y : Binary64) : Option Binary64 :=
  let (a, b) := x.toRatio
  let (c, d) := y.toRatio
  ofRatio (x.negative != y.negative) (a * c) (b * d)

/-- The rounded quotient; nothing when the divisor is zero. -/
def div (x y : Binary64) : Option Binary64 :=
  if y.mantissa = 0 then none
  else
    let (a, b) := x.toRatio
    let (c, d) := y.toRatio
    ofRatio (x.negative != y.negative) (a * d) (b * c)

/-- The number with the opposite sign. -/
def neg (x : Binary64) : Binary64 := { x with negative := !x.negative }

/-- Whether the number is zero, of either sign. -/
def isZero (x : Binary64) : Bool := x.mantissa == 0

/-- Equality of values: the two zeros are the same number. -/
def sameValue (x y : Binary64) : Bool :=
  x == y || (x.isZero && y.isZero)

/-- The magnitude rounded to an integer, a half going up. -/
def roundHalfUp (x : Binary64) : Nat :=
  let (num, den) := x.toRatio
  (2 * num + den) / (2 * den)

example : ofRatio false 1 3 = some ⟨false, 6004799503160661, -54⟩ := by decide +kernel
example : ofRatio false 1 (2 ^ 1074) = some ⟨false, 1, -1074⟩ := by decide +kernel
example : ofRatio false (2 ^ 1024) 1 = none := by decide +kernel

end Binary64

end Componentry
