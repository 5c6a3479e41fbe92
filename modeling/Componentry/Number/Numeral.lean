import Componentry.Number.Shortest
/-!
# Numbers and numerals

A `Number` is an integer or a binary64 number, and the two never agree: `1` is not `1.0`.  A
`Numeral` is a number as it is written: its digits before and after the point and its exponent.

Two readings of a numeral are needed.  `Numeral.toNumber?` is the reading of values: an integer
between −2^63 and 2^64 − 1 stays an integer, everything else becomes a binary64 number by
gathering at most 64 bits of digits and scaling them by a power of ten in binary64 arithmetic, and
a numeral that is too large has no value.  `readDecimal?` is the reading of durations and of plain
scalars: the nearest binary64 number, from the wider grammar that allows a sign, `.5` and `5.`.
-/

namespace Componentry

/-- An integer or a binary64 number. -/
inductive Number where
  | int (value : Int)
  | float (value : Binary64)
  deriving DecidableEq, Repr

namespace Number

/-- The text of a number. -/
def render : Number → String
  | .int value => toString value
  | .float value => value.render

/-- Equality of values within each kind. -/
def same : Number → Number → Bool
  | .int i, .int j => i == j
  | .float x, .float y => x.sameValue y
  | _, _ => false

/-- Whether a number is zero. -/
def isZero : Number → Bool
  | .int i => i == 0
  | .float x => x.isZero

/-- The nearest binary64 number. -/
def toBinary64? : Number → Option Binary64
  | .int i => Binary64.ofInt i
  | .float x => some x

/-- The natural number that an integer stands for. -/
def toNat? : Number → Option Nat
  | .int (.ofNat n) => some n
  | _ => none

end Number

/-- A written number; digits are the numbers 0 to 9. -/
structure Numeral where
  negative : Bool
  whole : List Nat
  fraction : Option (List Nat)
  exponent : Option Int
  deriving DecidableEq, Repr

namespace Numeral

/-- The value of a decimal digit. -/
def digit? (c : Char) : Option Nat :=
  if c.isDigit then some (c.toNat - '0'.toNat) else none

/-- The digits at the front of a text and what follows them. -/
def spanDigits : List Char → List Nat × List Char
  | [] => ([], [])
  | c :: rest =>
    match digit? c with
    | some d => let (digits, tail) := spanDigits rest; (d :: digits, tail)
    | none => ([], c :: rest)

/-- The number that digits stand for. -/
def valueOf (digits : List Nat) : Nat :=
  digits.foldl (fun n d => 10 * n + d) 0

/-- The exponent part, if the text starts with one; a mark without digits is no numeral. -/
def exponent? : List Char → Option (Option Int × List Char)
  | c :: rest =>
    if c = 'e' ∨ c = 'E' then
      let (negative, rest) :=
        match rest with
        | '-' :: rest => (true, rest)
        | '+' :: rest => (false, rest)
        | rest => (false, rest)
      match spanDigits rest with
      | ([], _) => none
      | (digits, rest) =>
        let value : Int := valueOf digits
        some (some (if negative then -value else value), rest)
    else some (none, c :: rest)
  | [] => some (none, [])

/-- Reads a whole text as a numeral of the value grammar: no leading zeros, digits on both sides
of a point. -/
def ofChars? (cs : List Char) : Option Numeral := do
  let (negative, cs) := match cs with
    | '-' :: cs => (true, cs)
    | cs => (false, cs)
  let (whole, cs) := spanDigits cs
  guard (whole ≠ [] ∧ (whole.length = 1 ∨ whole.head? ≠ some 0))
  let (fraction, cs) ← match cs with
    | '.' :: cs =>
      match spanDigits cs with
      | ([], _) => none
      | (digits, cs) => some (some digits, cs)
    | cs => some (none, cs)
  let (exponent, cs) ← exponent? cs
  guard cs.isEmpty
  return ⟨negative, whole, fraction, exponent⟩

/-! ### The reading of values -/

/-- Appends digits to a significand while it fits into 64 bits; the digits that do not fit come
back. -/
def gather (significand : Nat) : List Nat → Nat × List Nat
  | [] => (significand, [])
  | d :: rest =>
    if 10 * significand + d < Nat.pow 2 64 then gather (10 * significand + d) rest
    else (significand, d :: rest)

/-- The binary64 number nearest to a power of ten. -/
def powerOfTen (exponent : Nat) : Option Binary64 := Binary64.ofNat (Nat.pow 10 exponent)

/-- Divides by `10 ^ exponent`, in steps of `10 ^ 308`, until nothing is left. -/
def scaleDown : Nat → Binary64 → Nat → Option Binary64
  | 0, x, _ => some x
  | fuel + 1, x, exponent =>
    if exponent ≤ 308 then do x.div (← powerOfTen exponent)
    else if x.isZero then some x
    else do scaleDown fuel (← x.div (← powerOfTen 308)) (exponent - 308)

/-- Multiplies by a power of ten in binary64 arithmetic; nothing when the result is too large. -/
def scale (x : Binary64) (exponent : Int) : Option Binary64 :=
  if exponent < 0 then scaleDown (exponent.natAbs / 308 + 1) x exponent.natAbs
  else if exponent ≤ 308 then do x.mul (← powerOfTen exponent.toNat)
  else if x.isZero then some x
  else none

/-- The binary64 reading: digits of the whole part that do not fit the significand count as powers
of ten, digits of the fraction that do not fit are dropped. -/
def toBinary64? (n : Numeral) : Option Binary64 := do
  let (significand, left) := gather 0 n.whole
  let fraction := n.fraction.getD []
  let (significand, dropped) := gather significand fraction
  let exponent : Int := (left.length : Int) - ((fraction.length : Int) - dropped.length)
  let magnitude ← scale (← Binary64.ofNat significand) (exponent + n.exponent.getD 0)
  return if n.negative then magnitude.neg else magnitude

/-- The value of a numeral: an integer where one of 64 bits is written, a binary64 number
otherwise. A negative zero is a binary64 number. -/
def toNumber? (n : Numeral) : Option Number :=
  let value := valueOf n.whole
  if n.fraction = none ∧ n.exponent = none ∧
      (if n.negative then 0 < value ∧ value ≤ Nat.pow 2 63 else value < Nat.pow 2 64) then
    some (.int (if n.negative then -(value : Int) else value))
  else n.toBinary64?.map .float

end Numeral

/-- The binary64 number nearest to `digits · 10 ^ exponent`; numbers too large have none. -/
def Decimal.toBinary64? (negative : Bool) (d : Decimal) : Option Binary64 :=
  let top : Int := Decimal.digitCount d.digits + d.exponent
  if d.digits = 0 ∨ top < -400 then some (Binary64.zero negative)
  else if 400 < top then none
  else if 0 ≤ d.exponent then Binary64.ofRatio negative (d.digits * Nat.pow 10 d.exponent.toNat) 1
  else Binary64.ofRatio negative d.digits (Nat.pow 10 (-d.exponent).toNat)

/-- Reads a decimal with an optional sign and exponent and with digits on at least one side of the
point. -/
def readDecimal? (cs : List Char) : Option Binary64 := do
  let (negative, cs) := match cs with
    | '-' :: cs => (true, cs)
    | '+' :: cs => (false, cs)
    | cs => (false, cs)
  let (whole, cs) := Numeral.spanDigits cs
  let (fraction, cs) := match cs with
    | '.' :: cs => Numeral.spanDigits cs
    | cs => ([], cs)
  guard (whole ≠ [] ∨ fraction ≠ [])
  let (exponent, cs) ← Numeral.exponent? cs
  guard cs.isEmpty
  let digits := Numeral.valueOf (whole ++ fraction)
  Decimal.toBinary64? negative ⟨digits, exponent.getD 0 - (fraction.length : Int)⟩

end Componentry
