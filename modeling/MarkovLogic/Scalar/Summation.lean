/-
**Sums in a fixed order.**

Addition of doubles is not associative, so the order of a sum is part of its definition.  Long sums
run in eight lanes: lane `k` adds up every eighth term from term `k` on, the lanes are then added in
pairs four apart, and the terms behind the last full block of eight follow one by one.  With fewer
than eight terms this is the sum from left to right.

Main definitions:

* `runningSum` — the sum from left to right;
* `Lanes.sum`, `blockedSum` — the sum in eight lanes.
-/

set_option autoImplicit false

namespace MarkovLogic

variable {R : Type} [Zero R] [Add R]

/-- The sum from left to right, from zero on. -/
def runningSum (xs : List R) : R := xs.foldl (· + ·) 0

@[simp] theorem runningSum_nil : runningSum ([] : List R) = 0 := rfl

/-- Eight running sums. -/
structure Lanes (R : Type) where
  lane0 : R
  lane1 : R
  lane2 : R
  lane3 : R
  lane4 : R
  lane5 : R
  lane6 : R
  lane7 : R

namespace Lanes

/-- Nothing has been added yet. -/
def zero : Lanes R := ⟨0, 0, 0, 0, 0, 0, 0, 0⟩

/-- The lanes added in pairs four apart. -/
def total (s : Lanes R) : R :=
  0 + (s.lane0 + s.lane4) + (s.lane1 + s.lane5) + (s.lane2 + s.lane6) + (s.lane3 + s.lane7)

/-- The sum of the lanes and of the terms still to come. -/
def sum : Lanes R → List R → R
  | s, x0 :: x1 :: x2 :: x3 :: x4 :: x5 :: x6 :: x7 :: rest =>
    sum ⟨s.lane0 + x0, s.lane1 + x1, s.lane2 + x2, s.lane3 + x3,
      s.lane4 + x4, s.lane5 + x5, s.lane6 + x6, s.lane7 + x7⟩ rest
  | s, rest => rest.foldl (· + ·) s.total

end Lanes

/-- The sum in eight lanes. -/
def blockedSum (xs : List R) : R := Lanes.zero.sum xs

@[simp] theorem blockedSum_nil : blockedSum ([] : List R) = Lanes.total Lanes.zero := rfl

end MarkovLogic
