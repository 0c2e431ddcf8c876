/-
**A double rounded to a given number of places.**

Both notations round the exact value of the double, and halves go to the even digit.

Main definitions:

* `fixed` — a given number of places behind the point;
* `scientific` — one digit in front of the point, a given number behind it, and the power of ten.
-/
import MarkovLogic.Decimal.Magnitude

set_option autoImplicit false

namespace MarkovLogic.Decimal

/-- The text in front of which the sign of `x` is written; a zero keeps its sign. -/
def withSign (x : Float) (text : String) : String := if isNegative x then "-" ++ text else text

/-- The value with `places` digits behind the point, and no point if there are none. -/
def fixed (places : Nat) (x : Float) : String :=
  match special? x with
  | some text => text
  | none =>
    let v := Magnitude.ofFloat x
    let e : Int := -(places : Int)
    withSign x (positional (roundHalfEven (v.numerator e) (v.denominator e)) e)

namespace Magnitude

/-- The first `places + 1` digits of a positive value and the power of ten of the leading one.
Rounding up may carry into a further digit, and then the power grows by one. -/
def leadingDigits (v : Magnitude) (places : Nat) : Nat × Int :=
  let e := v.leadingPower - (places : Int)
  let digits := roundHalfEven (v.numerator e) (v.denominator e)
  if digits < Nat.pow 10 (places + 1) then (digits, v.leadingPower)
  else (digits / 10, v.leadingPower + 1)

end Magnitude

/-- The value with one digit in front of the point, `places` digits behind it, and the power of ten
behind the letter `e`, without padding and without a plus sign. -/
def scientific (places : Nat) (x : Float) : String :=
  match special? x with
  | some text => text
  | none =>
    let v := Magnitude.ofFloat x
    let (digits, power) := if v.mantissa = 0 then (0, 0) else v.leadingDigits places
    withSign x (positional digits (-(places : Int)) ++ "e" ++ toString power)

end MarkovLogic.Decimal
