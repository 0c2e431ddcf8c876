/-
**The fewest digits that read back to a double.**

The reals that round to a given double form an interval around it, which contains its two ends
exactly when the mantissa is even.  Going from coarse to fine decimal grids, the first grid with a
point in that interval decides the number of digits; only the two neighbours of the value on the
grid need to be tried.

Main definitions:

* `Magnitude.readsBack` — a multiple of `10 ^ e` lies in the rounding interval;
* `Magnitude.onGrid?` — the nearer neighbour that does, the upper one if both are equally near;
* `Magnitude.shortest` — the first hit, over all grids from the leading digit down;
* `shortest` — the text of any double, always without an exponent.
-/
import MarkovLogic.Decimal.Magnitude

set_option autoImplicit false

namespace MarkovLogic.Decimal

namespace Magnitude

/-- The number `c * 10 ^ e` lies among the reals that round to `v`.  Everything is scaled by four,
so that half a gap, and half of a narrow gap, are whole. -/
def readsBack (v : Magnitude) (e : Int) (c : Nat) : Bool :=
  let unit := Nat.pow 2 v.exponent.toNat * Nat.pow 10 (-e).toNat
  let point := 4 * (c * v.denominator e)
  let low := (4 * v.mantissa - if v.narrow then 1 else 2) * unit
  let high := (4 * v.mantissa + 2) * unit
  if v.mantissa % 2 = 0 then low ≤ point && point ≤ high else low < point && point < high

/-- The neighbour of `v` on the grid of the multiples of `10 ^ e` that reads back, if there is one.
If both do, the nearer one is taken, and the upper one if the value lies halfway. -/
def onGrid? (v : Magnitude) (e : Int) : Option Nat :=
  let below := v.numerator e / v.denominator e
  match v.readsBack e below, v.readsBack e (below + 1) with
  | true, true =>
    some (if 2 * v.numerator e < (2 * below + 1) * v.denominator e then below else below + 1)
  | true, false => some below
  | false, true => some (below + 1)
  | false, false => none

/-- The digits and the power of ten of the shortest decimal that reads back.  Seventeen digits
always suffice; the exact value stands behind them so that the result needs no proof of that. -/
def shortest (v : Magnitude) : Nat × Int :=
  let top := v.leadingPower + 1
  let grids := (List.range 19).map fun (i : Nat) => top - (i : Int)
  match grids.findSome? fun e => (v.onGrid? e).map fun c => (c, e) with
  | some hit => hit
  | none =>
    (v.mantissa * Nat.pow 2 v.exponent.toNat * Nat.pow 5 (-v.exponent).toNat, min v.exponent 0)

end Magnitude

/-- The shortest text that reads back to `x`, without an exponent whatever the size of `x`, without
a point if `x` is an integer, and with the sign of a zero. -/
def shortest (x : Float) : String :=
  match special? x with
  | some text => text
  | none =>
    let v := Magnitude.ofFloat x
    let text := if v.mantissa = 0 then "0" else positional v.shortest.1 v.shortest.2
    if isNegative x then "-" ++ text else text

end MarkovLogic.Decimal
