/-
**Numbers to compute with.**

Weights, likelihoods and gradients are computed over any type of numbers that has arithmetic and
answers the questions collected here.  Doubles answer them as they are; an exact field answers that
all its numbers are finite.

Main definitions:

* `MarkovLogic.Scalar` — order, finiteness, and the value of an empty maximum;
* `MarkovLogic.ExpLog` — the exponential and the natural logarithm, kept apart because nothing but
  what a statement assumes is known of them;
* `MarkovLogic.DecimalText` — the text of a number inside a message.
-/
import MarkovLogic.Decimal.Shortest

set_option autoImplicit false

namespace MarkovLogic

/-- What a computation asks about its numbers besides their arithmetic. -/
class Scalar (R : Type) where
  /-- Neither infinite nor undefined. -/
  isFinite : R → Bool
  /-- Undefined, and apart from every number. -/
  isNaN : R → Bool
  /-- The strict order. -/
  less : R → R → Bool
  /-- The largest of no numbers. -/
  bottom : R
  /-- A count as a number. -/
  ofCount : Nat → R

/-- The exponential and the natural logarithm. -/
class ExpLog (R : Type) where
  exp : R → R
  log : R → R

/-- How a number is written in a message. -/
class DecimalText (R : Type) where
  decimal : R → String

instance : Scalar Float where
  isFinite := Float.isFinite
  isNaN := Float.isNaN
  less x y := x < y
  bottom := -(1.0 / 0.0)
  ofCount := Float.ofNat

instance : ExpLog Float where
  exp := Float.exp
  log := Float.log

instance : DecimalText Float where
  decimal := Decimal.shortest

end MarkovLogic
