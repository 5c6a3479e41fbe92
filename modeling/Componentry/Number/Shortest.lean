import Componentry.Number.Binary64
/-!
# The shortest decimal that reads back

The numbers nearest to one binary64 number form an interval of reals; its ends belong to it when
the mantissa is even.  `shortest` looks for the decimal with the fewest digits inside that
interval: for one digit, two digits and so on it tests the two neighbours of the number on the
decimal grid, takes the nearer one if both lie inside, and the even one at a tie.

`Layout` says how digits become text; `Layout.json` is the form in which values are written:
positional from 0.00001 up to below 10^16 with at least one digit after the point, and scientific
with a signed exponent outside of that range.
-/

namespace Componentry

/-- The decimal `digits · 10 ^ exponent`. -/
structure Decimal where
  digits : Nat
  exponent : Int
  deriving DecidableEq, Repr

namespace Decimal

/-- How many digits a natural number has; zero has one. -/
def digitCount (n : Nat) : Nat := (Nat.toDigits 10 n).length

/-- The exponent `e` with `10 ^ e ≤ num / den < 10 ^ (e + 1)`, for positive arguments. -/
def floorLogTen (num den : Nat) : Int :=
  if den ≤ num then (digitCount (num / den) : Int) - 1
  else
    let ceiling := (den + num - 1) / num
    Int.negOfNat (digitCount (ceiling - 1))

/-- Moves trailing zeros of the digits into the exponent, at most `fuel` of them. -/
def normalize : Nat → Decimal → Decimal
  | 0, d => d
  | fuel + 1, d =>
    if d.digits ≠ 0 ∧ d.digits % 10 = 0 then normalize fuel ⟨d.digits / 10, d.exponent + 1⟩ else d

/-- The interval of reals that round to a number, in quarters of its unit: the value is `4 · m`,
and below a power of two the gap is half as wide. -/
structure Neighbourhood where
  low : Nat
  value : Nat
  high : Nat
  closed : Bool

/-- The neighbourhood of a positive number. -/
def neighbourhood (x : Binary64) : Neighbourhood :=
  let narrow := x.mantissa = Nat.pow 2 52 ∧ -1074 < x.exponent
  { low := if narrow then 4 * x.mantissa - 1 else 4 * x.mantissa - 2
    value := 4 * x.mantissa
    high := 4 * x.mantissa + 2
    closed := x.mantissa % 2 == 0 }

/-- The point of the grid `10 ^ e` that stands for `x`, if one of its two neighbours there lies in
the neighbourhood. -/
def onGrid (x : Binary64) (e : Int) : Option Nat :=
  let area := neighbourhood x
  let unit : Int := x.exponent - 2
  -- a real `r · 2 ^ unit` and a grid point `d · 10 ^ e` are compared as `r * a` and `d * b`
  let a := (if 0 ≤ unit then Nat.pow 2 unit.toNat else 1) * (if e < 0 then Nat.pow 10 (-e).toNat else 1)
  let b := (if unit < 0 then Nat.pow 2 (-unit).toNat else 1) * (if 0 ≤ e then Nat.pow 10 e.toNat else 1)
  let inside (d : Nat) : Bool :=
    if area.closed then area.low * a ≤ d * b && d * b ≤ area.high * a
    else area.low * a < d * b && d * b < area.high * a
  let below := area.value * a / b
  let above := below + 1
  match inside below, inside above with
  | true, true =>
    let down := area.value * a - below * b
    let up := above * b - area.value * a
    if down < up then some below
    else if up < down then some above
    else if below % 2 = 0 then some below else some above
  | true, false => some below
  | false, true => some above
  | false, false => none

/-- The shortest decimal that reads back as the magnitude of `x`. -/
def shortest (x : Binary64) : Decimal :=
  if x.mantissa = 0 then ⟨0, 0⟩
  else
    let (num, den) := x.toRatio
    let top := floorLogTen num den
    let candidate := (List.range 17).findSome? fun (n : Nat) =>
      let e : Int := top - n
      (onGrid x e).map fun d => Decimal.mk d e
    normalize 20 (candidate.getD ⟨0, 0⟩)

end Decimal

/-- How a decimal is laid out as text. -/
structure DecimalLayout where
  /-- The point stands inside or right before the digits down to this power of ten. -/
  positionalFrom : Int
  /-- Numbers with more digits than this in front of the point are scientific. -/
  positionalDigits : Int
  /-- What follows an integral positional number. -/
  integralMark : String
  /-- The mark and sign of a positive exponent. -/
  positiveMark : String
  /-- The mark and sign of a negative exponent. -/
  negativeMark : String

/-- Values are positional from 0.00001 to below 10^16, show an integral number with `.0`, and sign
every exponent. -/
def DecimalLayout.json : DecimalLayout :=
  ⟨-5, 16, ".0", "e+", "e-"⟩

namespace DecimalLayout

/-- The given number of zeros. -/
def zeros (n : Nat) : List Char := List.replicate n '0'

/-- The text of a positive decimal. -/
def render (layout : DecimalLayout) (d : Decimal) : List Char :=
  let digits := Nat.toDigits 10 d.digits
  let count : Int := digits.length
  let point := count + d.exponent
  if 0 ≤ d.exponent ∧ point ≤ layout.positionalDigits then
    digits ++ zeros d.exponent.toNat ++ layout.integralMark.toList
  else if 0 < point ∧ point ≤ layout.positionalDigits then
    digits.take point.toNat ++ '.' :: digits.drop point.toNat
  else if layout.positionalFrom < point ∧ point ≤ 0 then
    '0' :: '.' :: zeros (-point).toNat ++ digits
  else
    let exponent := point - 1
    let fraction := if digits.length ≤ 1 then [] else '.' :: digits.drop 1
    let mark := if exponent < 0 then layout.negativeMark else layout.positiveMark
    digits.take 1 ++ fraction ++ mark.toList ++ Nat.toDigits 10 exponent.natAbs

end DecimalLayout

/-- The text of a binary64 number. -/
def Binary64.render (x : Binary64) : String :=
  let magnitude := DecimalLayout.json.render (Decimal.shortest x)
  String.ofList (if x.negative then '-' :: magnitude else magnitude)

end Componentry
