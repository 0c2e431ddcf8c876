/-
**A line search by secant steps.**

The search keeps an interval and narrows it by two secant steps a round, with a bisection where the
secants do not shrink it enough.  Three trials are made first, a tiny step, a huge one and the unit
step; the unit step stays in the running throughout, beside the ends of the current interval.

Main definitions:

* `HagerZhang.update` — the part of an interval that a further trial leaves;
* `HagerZhang.doubleSecant` — two secant steps;
* `HagerZhang.search` — the line search, with an allowance of rounds.
-/
import MarkovLogic.Solver.LineSearch.Attempt
import MarkovLogic.Solver.Settings

set_option autoImplicit false

namespace MarkovLogic.HagerZhang

/-- The share of the first slope by which the cost has to fall. -/
def descentShare : Float := 0.1

/-- The share of the first slope above which the slope has to be. -/
def slopeShare : Float := 0.9

/-- The share of the interval that two secant steps may leave. -/
def shrinkShare : Float := 0.66

/-- An interval of trials. -/
structure Interval where
  low : Trial
  high : Trial

variable {n : Nat}

/-- The cost that counts as no worse than the first one. -/
def tolerated (ray : Ray n) : Float := ray.cost + 1e-6 * ray.cost.abs

/-- Halve the interval between a low end and a step until the slope at a middle is not negative.  A
middle that is too high becomes the upper step, any other with a negative slope the low end. -/
def bisect (ray : Ray n) : Nat → Trial → Float → Attempt n Interval
  | 0, _, _ => Attempt.outOfSteps
  | allowance + 1, low, high => do
    let middle ← trialAt ray ((1.0 - 0.5) * low.step + 0.5 * high)
    if 0.0 ≤ middle.slope then return ⟨low, middle⟩
    else
      let falls : Bool := middle.slope < 0.0
      let low' := if falls && middle.value ≤ tolerated ray then middle else low
      let high' := if falls && tolerated ray < middle.value then middle.step else high
      bisect ray allowance low' high'

/-- The part of an interval that a further trial leaves. -/
def update (ray : Ray n) (allowance : Nat) (i : Interval) (c : Trial) : Attempt n Interval :=
  if c.step ≤ i.low.step || i.high.step ≤ c.step then return i
  else if 0.0 ≤ c.slope then return ⟨i.low, c⟩
  else if c.slope < 0.0 && c.value ≤ tolerated ray then return ⟨c, i.high⟩
  else if c.slope < 0.0 && tolerated ray < c.value then bisect ray allowance i.low c.step
  else Attempt.fail .noInterval

/-- Where the line through two slopes vanishes. -/
def secant (a b : Trial) : Float := (a.step * b.slope - b.step * a.slope) / (b.slope - a.slope)

/-- A secant step, and a second one from the end that the first one has replaced. -/
def doubleSecant (ray : Ray n) (allowance : Nat) (i : Interval) : Attempt n Interval := do
  let c ← trialAt ray (secant i.low i.high)
  let j ← update ray allowance i c
  let replacedHigh : Bool := (c.step - j.high.step).abs < machineEpsilon
  let replacedLow : Bool := (c.step - j.low.step).abs < machineEpsilon
  if replacedLow then update ray allowance j (← trialAt ray (secant i.low j.low))
  else if replacedHigh then update ray allowance j (← trialAt ray (secant i.high j.high))
  else return j

/-- The trial of least cost among the interval's ends and the unit step, the later of equal ones.
If the costs cannot be compared, the best one so far stays. -/
def bestOf (i : Interval) (unit best : Trial) : Trial :=
  let a := i.low
  let b := i.high
  let best := if a.value ≤ b.value && a.value ≤ unit.value then a else best
  let best := if b.value ≤ a.value && b.value ≤ unit.value then b else best
  if unit.value ≤ a.value && unit.value ≤ b.value then unit else best

/-- Cost and slope have fallen enough, or the slope has and the cost has not risen. -/
def accepts (ray : Ray n) (t : Trial) : Bool :=
  (t.value - ray.cost ≤ descentShare * t.step * ray.slope && slopeShare * ray.slope ≤ t.slope)
    || (t.slope ≤ (2.0 * descentShare - 1.0) * ray.slope && slopeShare * ray.slope ≤ t.slope
      && t.value ≤ tolerated ray)

/-- Go on from an interval until a trial is accepted. -/
def rounds (ray : Ray n) (unit : Trial) (whole : Nat) : Nat → Interval → Trial →
    Attempt n (Vector Float n × Float)
  | allowance, i, best =>
    if accepts ray best then return (ray.point best.step, best.value)
    else match allowance with
      | 0 => Attempt.outOfSteps
      | allowance + 1 => do
        let j ← doubleSecant ray whole i
        let j ←
          if shrinkShare * (i.high.step - i.low.step) < j.high.step - j.low.step then
            update ray whole j (← trialAt ray ((j.low.step + j.high.step) / 2.0))
          else pure j
        rounds ray unit whole allowance j (bestOf j unit best)

/-- The accepted point along the ray and its cost.  The rounds and each bisection within them have
the same allowance. -/
def search (ray : Ray n) (allowance : Nat) : Attempt n (Vector Float n × Float) := do
  let a ← trialAt ray machineEpsilon
  let b ← trialAt ray 1e5
  let unit ← trialAt ray 1.0
  let i : Interval := ⟨a, b⟩
  rounds ray unit allowance allowance i (bestOf i unit ⟨0.0, 1.0 / 0.0, 0.0 / 0.0⟩)

end MarkovLogic.HagerZhang
