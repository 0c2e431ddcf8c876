/-
**The exact value of a double, and its place on a decimal grid.**

A finite double is an integer times a power of two, so every question about its decimal text is a
question about natural numbers.  This module decodes the bits and sets up the one comparison that
both printers need: the value divided by a power of ten, as an exact fraction.

Main definitions:

* `MarkovLogic.Decimal.Magnitude` — `mantissa * 2 ^ exponent`, with the width of the gap below;
* `Magnitude.numerator`, `Magnitude.denominator` — the value divided by `10 ^ e` as a fraction;
* `Magnitude.leadingPower` — the position of the first digit;
* `roundHalfEven` — a fraction rounded to the nearest integer, halves to the even one;
* `positional` — an integer times a power of ten, written without an exponent.
-/

set_option autoImplicit false

namespace MarkovLogic.Decimal

/-- The magnitude `mantissa * 2 ^ exponent` of a finite double. -/
structure Magnitude where
  mantissa : Nat
  exponent : Int
  /-- The next double below is half as far away as the next one above. -/
  narrow : Bool
deriving DecidableEq

/-- The magnitude of a finite double, read off its bits.  A value without the hidden bit is a
subnormal one and lies on the grid of the least exponent. -/
def Magnitude.ofFloat (x : Float) : Magnitude :=
  let bits : Nat := x.toBits.toNat
  let field : Nat := bits / Nat.pow 2 52 % 2048
  let fraction : Nat := bits % Nat.pow 2 52
  if field = 0 then ⟨fraction, -1074, false⟩
  else ⟨Nat.pow 2 52 + fraction, (field : Int) - 1075, fraction == 0 && 1 < field⟩

/-- The sign bit, which a zero has as well. -/
def isNegative (x : Float) : Bool := x.toBits.toNat / Nat.pow 2 63 == 1

/-- The text of a value that is not finite. -/
def special? (x : Float) : Option String :=
  if x.isNaN then some "NaN"
  else if x.isInf then some (if isNegative x then "-inf" else "inf")
  else none

namespace Magnitude

/-- The value divided by `10 ^ e` is `v.numerator e / v.denominator e`. -/
def numerator (v : Magnitude) (e : Int) : Nat :=
  v.mantissa * Nat.pow 2 v.exponent.toNat * Nat.pow 10 (-e).toNat

/-- The value divided by `10 ^ e` is `v.numerator e / v.denominator e`. -/
def denominator (v : Magnitude) (e : Int) : Nat :=
  Nat.pow 2 (-v.exponent).toNat * Nat.pow 10 e.toNat

/-- The largest `k` with `10 ^ k` at most the value.  The binary logarithm, times the decimal
logarithm of two, is off by one at most. -/
def leadingPower (v : Magnitude) : Int :=
  let estimate := ((v.mantissa.log2 : Int) + v.exponent) * 30103 / 100000
  match [estimate + 1, estimate].find? fun k => v.denominator k ≤ v.numerator k with
  | some k => k
  | none => estimate - 1

end Magnitude

/-- The fraction `num / den` rounded to the nearest integer, halves to the even one. -/
def roundHalfEven (num den : Nat) : Nat :=
  let whole := num / den
  match compare (2 * (num % den)) den with
  | .lt => whole
  | .gt => whole + 1
  | .eq => whole + whole % 2

/-- The number `digits * 10 ^ exponent` written without an exponent: zeros are added behind it, or
a point is set inside or in front of it. -/
def positional (digits : Nat) (exponent : Int) : String :=
  let ds := Nat.toDigits 10 digits
  if 0 ≤ exponent then String.ofList (ds ++ List.replicate exponent.toNat '0')
  else
    let places := (-exponent).toNat
    let padded := List.replicate (places + 1 - ds.length) '0' ++ ds
    let point := padded.length - places
    String.ofList (padded.take point ++ '.' :: padded.drop point)

end MarkovLogic.Decimal
