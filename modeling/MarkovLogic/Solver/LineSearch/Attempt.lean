/-
**Trying steps along a direction.**

A line search looks for a good size of a step from a point along a direction.  It probes cost and
gradient at trial steps and may fail, which ends the line search and not the conversation.

Main definitions:

* `StepFailure`, `StepFailure.message` — why a line search gives up;
* `Attempt` — a search that may fail so;
* `Trial`, `trialAt` — a step with the cost there and the slope along the direction;
* `smaller`, `larger` — minimum and maximum, where an undefined number gives way to the other.
-/
import MarkovLogic.Scalar.Arrow
import MarkovLogic.Solver.Query
import MarkovLogic.Text.Quoted

set_option autoImplicit false

namespace MarkovLogic

/-! ### Failures -/

/-- Why a line search gives up. -/
inductive StepFailure where
  /-- A probe failed. -/
  | evaluation (error : OptimizationError Float)
  /-- The cost does not fall along the direction. -/
  | notDescent
  /-- An interpolation met a number that is not finite; `ticked` tells in which case of it. -/
  | notFinite (ticked : Bool)
  /-- No rule for the next interval applies, because a slope is undefined. -/
  | noInterval

/-- A violated condition in words. -/
def conditionViolated (text : String) : String := "Condition violated: " ++ Text.quoted text

/-- The text of the failure. -/
def StepFailure.message : StepFailure → String
  | evaluation error => error.message
  | notDescent =>
    conditionViolated "`MoreThuenteLineSearch`: Search direction must be a descent direction."
  | notFinite false =>
    conditionViolated "MoreThuenteLineSearch: NaN or Inf encountered during iteration"
  | notFinite true =>
    conditionViolated "`MoreThuenteLineSearch`: NaN or Inf encountered during iteration"
  | noInterval =>
    "Potential bug: " ++
      Text.quoted "`HagerZhangLineSearch`: Reached unreachable point in `update` method." ++
      ". This is potentially a bug. Please file a report on " ++
      "https://github.com/argmin-rs/argmin/issues"

/-! ### Attempts -/

/-- A search that may fail without ending the conversation. -/
abbrev Attempt (n : Nat) (α : Type) : Type := ExceptT StepFailure (Search Float n) α

namespace Attempt

variable {n : Nat} {α : Type}

/-- Give up for a reason. -/
def fail (failure : StepFailure) : Attempt n α := ExceptT.mk (.done (.error failure))

/-- The allowance of steps has run out. -/
def outOfSteps : Attempt n α := ExceptT.mk .unfinished

/-- Probe the cost at `x`. -/
def cost (x : Vector Float n) : Attempt n Float :=
  ExceptT.mk ((Except.mapError .evaluation) <$> Search.cost x)

/-- Probe the gradient at `x`. -/
def gradient (x : Vector Float n) : Attempt n (Vector Float n) :=
  ExceptT.mk ((Except.mapError .evaluation) <$> Search.gradient x)

end Attempt

/-! ### Trials -/

/-- A step, the cost after it and the slope of the cost along the direction there. -/
structure Trial where
  step : Float
  value : Float
  slope : Float

/-- Where a line search starts: a point with its cost and gradient, and the direction. -/
structure Ray (n : Nat) where
  origin : Vector Float n
  cost : Float
  gradient : Vector Float n
  direction : Vector Float n

variable {n : Nat}

/-- The point after a step. -/
def Ray.point (ray : Ray n) (step : Float) : Vector Float n :=
  Arrow.along ray.origin step ray.direction

/-- The slope at the origin. -/
def Ray.slope (ray : Ray n) : Float := Arrow.dot ray.gradient ray.direction

/-- Probe cost and then gradient after a step. -/
def trialAt (ray : Ray n) (step : Float) : Attempt n Trial := do
  let value ← Attempt.cost (ray.point step)
  let gradient ← Attempt.gradient (ray.point step)
  return ⟨step, value, Arrow.dot ray.direction gradient⟩

/-! ### Minimum and maximum -/

/-- The smaller number; an undefined one gives way to the other. -/
def smaller (a b : Float) : Float :=
  if a.isNaN then b else if b.isNaN then a else if b < a then b else a

/-- The larger number; an undefined one gives way to the other. -/
def larger (a b : Float) : Float :=
  if a.isNaN then b else if b.isNaN then a else if a < b then b else a

end MarkovLogic
