/-
**The logarithm of a sum of exponentials.**

The largest term is taken out of the sum before the exponentials are formed, so that none of them
overflows.

Main definitions:

* `peak?` — the largest number of a list, undefined ones passed over;
* `logSumExp` — the logarithm of the sum of the exponentials.
-/
import MarkovLogic.Scalar
import MarkovLogic.Scalar.Summation

set_option autoImplicit false

namespace MarkovLogic

variable {R : Type} [Scalar R]

/-- The larger of the largest number so far and a further one, unless that is undefined. -/
def raisePeak (peak : Option R) (x : R) : Option R :=
  if Scalar.isNaN x then peak
  else match peak with
    | none => some x
    | some m => some (if Scalar.less m x then x else m)

/-- The largest number of a list, undefined ones passed over. -/
def peak? (xs : List R) : Option R := xs.foldl raisePeak none

/-- The logarithm of the sum of the exponentials.  A largest number that is not finite is the result
itself. -/
def logSumExp [Zero R] [Add R] [Sub R] [ExpLog R] (xs : List R) : R :=
  match peak? xs with
  | none => Scalar.bottom
  | some m =>
    if Scalar.isFinite m then
      m + ExpLog.log (blockedSum (xs.map fun x => ExpLog.exp (x - m)))
    else m

end MarkovLogic
