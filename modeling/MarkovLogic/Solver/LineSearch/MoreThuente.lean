/-
**A line search by safeguarded interpolation.**

The step is sought in an interval of uncertainty whose ends are the best trial so far and another
one.  Each round probes a trial step, accepts it if cost and slope have fallen enough, and otherwise
interpolates a new trial from the values and slopes at hand, which also shrinks the interval.  As
long as no trial meets the descent condition, a first stage interpolates the cost less the line of
that condition; of what it finds only the new ends of the interval are kept.

Main definitions:

* `MoreThuente.Bracket` — the two ends, the next trial, and whether a minimum is enclosed;
* `MoreThuente.interpolate` — the next trial and the smaller interval;
* `MoreThuente.search` — the line search, with an allowance of rounds.
-/
import MarkovLogic.Solver.LineSearch.Attempt
import MarkovLogic.Solver.Settings

set_option autoImplicit false

namespace MarkovLogic.MoreThuente

/-- The share of the first slope by which the cost has to fall. -/
def descentShare : Float := 1e-4

/-- The share of the first slope below which the slope has to be. -/
def slopeShare : Float := 0.9

/-- The relative width below which the interval counts as a point. -/
def widthShare : Float := 1e-10

/-- The least step.  There is no largest one. -/
def leastStep : Float := rootEpsilon

/-- The interval of uncertainty and the next trial. -/
structure Bracket where
  /-- The end with the least cost. -/
  best : Trial
  other : Trial
  trial : Trial
  /-- A minimum is known to lie between the ends. -/
  enclosed : Bool

/-! ### Interpolation -/

/-- The largest of three numbers, the last of equal ones, if all three are finite. -/
def largestOf (ticked : Bool) (a b c : Float) : Except StepFailure Float :=
  if a.isFinite && b.isFinite && c.isFinite then
    let m := if a ≤ b then b else a
    .ok (if m ≤ c then c else m)
  else .error (.notFinite ticked)

/-- The coefficient that the cubics through two trials have in common. -/
def cubicTerm (a b : Trial) : Float :=
  3.0 * (a.value - b.value) / (b.step - a.step) + a.slope + b.slope

/-- The discriminant of such a cubic, scaled by `s`. -/
def discriminant (theta s a b : Float) : Float := (theta / s) * (theta / s) - (a / s) * (b / s)

/-- The trial costs more than the best end: the minimum is enclosed, and the nearer of the cubic
step and the middle between cubic and quadratic step is taken. -/
def stepWhenHigher (best trial : Trial) : Except StepFailure Float := do
  let theta := cubicTerm best trial
  let s ← largestOf false theta best.slope trial.slope
  let root := s * (discriminant theta s best.slope trial.slope).sqrt
  let gamma := if trial.step < best.step then -root else root
  let r := ((gamma - best.slope) + theta) / (((gamma - best.slope) + gamma) + trial.slope)
  let span := trial.step - best.step
  let cubic := best.step + r * span
  let quadratic :=
    best.step + best.slope / ((best.value - trial.value) / span + best.slope) / 2.0 * span
  return if (cubic - best.step).abs < (quadratic - best.step).abs then cubic
    else cubic + (quadratic - cubic) / 2.0

/-- The slope changes its sign: the minimum is enclosed, and the farther of the cubic and the secant
step is taken. -/
def stepWhenTurned (best trial : Trial) : Except StepFailure Float := do
  let theta := cubicTerm best trial
  let s ← largestOf false theta best.slope trial.slope
  let root := s * (discriminant theta s best.slope trial.slope).sqrt
  let gamma := if best.step < trial.step then -root else root
  let r := ((gamma - trial.slope) + theta) / (((gamma - trial.slope) + gamma) + best.slope)
  let back := best.step - trial.step
  let cubic := trial.step + r * back
  let secant := trial.step + trial.slope / (trial.slope - best.slope) * back
  return if (secant - trial.step).abs < (cubic - trial.step).abs then cubic else secant

/-- The slope grows weaker: the cubic step is taken if it leads on, else the end of the allowed
range; of it and the secant step the nearer one if a minimum is enclosed, otherwise the farther. -/
def stepWhenWeaker (best trial : Trial) (enclosed : Bool) (low high : Float) :
    Except StepFailure Float := do
  let theta := cubicTerm best trial
  let s ← largestOf true theta best.slope trial.slope
  let root := s * (larger 0.0 (discriminant theta s best.slope trial.slope)).sqrt
  let gamma := if best.step < trial.step then -root else root
  let r := ((gamma - trial.slope) + theta) / ((gamma + (best.slope - trial.slope)) + gamma)
  let back := best.step - trial.step
  let cubic :=
    if r < 0.0 && gamma != 0.0 then trial.step + r * back
    else if best.step < trial.step then high else low
  let secant := trial.step + trial.slope / (trial.slope - best.slope) * back
  let toCubic := (trial.step - cubic).abs
  let toSecant := (trial.step - secant).abs
  return if enclosed then (if toCubic < toSecant then cubic else secant)
    else if toSecant < toCubic then cubic else secant

/-- The cost falls and the slope does not weaken: the cubic step with the other end if a minimum is
enclosed, otherwise the end of the allowed range. -/
def stepWhenSteady (best other trial : Trial) (enclosed : Bool) (low high : Float) :
    Except StepFailure Float :=
  if enclosed then do
    let theta := 3.0 * (trial.value - other.value) / (other.step - trial.step)
      + other.slope + trial.slope
    let s ← largestOf false theta other.slope trial.slope
    let root := s * (discriminant theta s other.slope trial.slope).sqrt
    let gamma := if other.step < trial.step then -root else root
    let r := ((gamma - trial.slope) + theta) / (((gamma - trial.slope) + gamma) + other.slope)
    return trial.step + r * (other.step - trial.step)
  else return if best.step < trial.step then high else low

/-- The next trial and the new interval; `none` if the interval is inconsistent: an enclosed minimum
with the trial outside, a direction that does not descend, or an empty range. -/
def interpolate (b : Bracket) (low high : Float) : Except StepFailure (Option Bracket) := do
  let { best, other, trial, enclosed } := b
  if (enclosed && (trial.step ≤ smaller best.step other.step
        || larger best.step other.step ≤ trial.step))
      || best.slope * (trial.step - best.step) ≥ 0.0 || high < low then
    return none
  let sign := trial.slope * (best.slope / best.slope.abs)
  let higher : Bool := best.value < trial.value
  let turned : Bool := sign < 0.0
  let weaker : Bool := trial.slope.abs < best.slope.abs
  let step ←
    if higher then stepWhenHigher best trial
    else if turned then stepWhenTurned best trial
    else if weaker then stepWhenWeaker best trial enclosed low high
    else stepWhenSteady best other trial enclosed low high
  let enclosed := enclosed || higher || turned
  let newBest := if higher then best else trial
  let newOther := if higher then trial else if turned then best else other
  let step := larger low (smaller high step)
  let step :=
    if enclosed && (higher || (!turned && weaker)) then
      let limit := newBest.step + 0.66 * (newOther.step - newBest.step)
      if newBest.step < newOther.step then smaller step limit else larger step limit
    else step
  return some ⟨newBest, newOther, ⟨step, trial.value, trial.slope⟩, enclosed⟩

/-! ### The search -/

/-- What a round hands on to the next. -/
structure State where
  bracket : Bracket
  /-- No trial has met the descent condition with a slope to match. -/
  firstStage : Bool
  /-- The last interpolation found the interval inconsistent. -/
  stuck : Bool
  /-- The width of the interval one round ago and two rounds ago. -/
  width : Float
  widthBefore : Float

/-- The cost less the line of the descent condition. -/
def lowered (t : Trial) (line : Float) : Trial :=
  ⟨t.step, t.value - t.step * line, t.slope - line⟩

/-- The next bracket after the trial was probed.  In the first stage only the ends of the lowered
interpolation are taken over, next to the old values and slopes moved back by the line. -/
def nextBracket (b : Bracket) (probed : Trial) (lower : Bool) (line low high : Float) :
    Except StepFailure (Bracket × Bool) := do
  if lower then
    let start : Bracket :=
      ⟨lowered b.best line, lowered b.other line, lowered probed line, b.enclosed⟩
    let found ← interpolate start low high
    let next := found.getD start
    return (⟨⟨next.best.step, b.best.value + next.best.step * line, b.best.slope + line⟩,
      ⟨next.other.step, b.other.value + next.other.step * line, b.other.slope + line⟩,
      next.trial, next.enclosed⟩, found.isNone)
  else
    let start : Bracket := { b with trial := probed }
    let found ← interpolate start low high
    return (found.getD start, found.isNone)

variable {n : Nat}

/-- Go on from a state until a trial is accepted; each round probes once. -/
def rounds (ray : Ray n) : Nat → State → Attempt n (Vector Float n × Float)
  | 0, _ => Attempt.outOfSteps
  | allowance + 1, s => do
    let b := s.bracket
    let slope := ray.slope
    let line := descentShare * slope
    let low := if b.enclosed then smaller b.best.step b.other.step else b.best.step
    let high := if b.enclosed then larger b.best.step b.other.step
      else b.trial.step + 4.0 * (b.trial.step - b.best.step)
    let step := larger b.trial.step leastStep
    let isPoint := b.enclosed && high - low ≤ widthShare * high
    let step :=
      if (b.enclosed && (step ≤ low || high ≤ step)) || isPoint || s.stuck then b.best.step
      else step
    let probed ← trialAt ray step
    let bound := ray.cost + step * line
    if (b.enclosed && (step ≤ low || high ≤ step)) || s.stuck
        || ((step - leastStep).abs < machineEpsilon
          && (bound < probed.value || line ≤ probed.slope))
        || isPoint
        || (probed.value ≤ bound && probed.slope.abs ≤ slopeShare * -slope) then
      return (ray.point step, probed.value)
    let firstStage := s.firstStage && !(probed.value ≤ bound && line ≤ probed.slope)
    let lower := firstStage && probed.value ≤ b.trial.value && bound < probed.value
    let (b, stuck) ←
      (nextBracket b probed lower line low high : Except StepFailure (Bracket × Bool))
    if b.enclosed then
      let width := (b.other.step - b.best.step).abs
      let b :=
        if 0.66 * s.widthBefore ≤ width then
          { b with trial := { b.trial with
            step := b.best.step + 0.5 * (b.other.step - b.best.step) } }
        else b
      rounds ray allowance ⟨b, firstStage, stuck, width, s.width⟩
    else rounds ray allowance ⟨b, firstStage, stuck, s.width, s.widthBefore⟩

/-- The accepted point along the ray and its cost. -/
def search (ray : Ray n) (allowance : Nat) : Attempt n (Vector Float n × Float) :=
  if 0.0 ≤ ray.slope then Attempt.fail .notDescent
  else
    let undefined : Float := 0.0 / 0.0
    let endless : Float := 1.0 / 0.0
    let origin : Trial := ⟨0.0, ray.cost, ray.slope⟩
    rounds ray allowance
      ⟨⟨origin, origin, ⟨1.0, undefined, undefined⟩, false⟩, true, false, endless, endless⟩

end MarkovLogic.MoreThuente
