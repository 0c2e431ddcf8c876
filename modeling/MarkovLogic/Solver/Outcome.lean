/-
**How a maximisation ends.**

Main definitions:

* `StopReason`, `Termination` — why the solver stopped, and its text;
* `Verdict` — what that means for the caller, with its code and text;
* `Tally` — how often cost and gradient were probed;
* `Outcome`, `Outcome.make` — the estimate with all that is reported about it.
-/
import MarkovLogic.Scalar.Arrow
import MarkovLogic.Scalar.Finite
import MarkovLogic.Solver.Query
import MarkovLogic.Text.Quoted

set_option autoImplicit false

namespace MarkovLogic

/-! ### Termination -/

/-- Why a solver stops. -/
inductive StopReason where
  | capReached
  | targetReached
  | converged
  | interrupted
  | timedOut
  /-- It gave up, with a text. -/
  | gaveUp (text : String)
deriving DecidableEq

/-- The state of a solver: still running, or stopped for a reason. -/
inductive Termination where
  | running
  | stopped (reason : StopReason)
deriving DecidableEq

/-- The name of the reason in a status. -/
def StopReason.status : StopReason → String
  | capReached => "MaxItersReached"
  | targetReached => "TargetCostReached"
  | converged => "SolverConverged"
  | interrupted => "Interrupt"
  | timedOut => "Timeout"
  | gaveUp text => "SolverExit(" ++ Text.quoted text ++ ")"

/-- The status in words. -/
def Termination.status : Termination → String
  | running => "NotTerminated"
  | stopped reason => "Terminated(" ++ reason.status ++ ")"

/-- What a termination means for the caller. -/
inductive Verdict where
  | converged
  | capReached
  | stoppedEarly
deriving DecidableEq

namespace Verdict

/-- The number of the verdict; zero is the good one. -/
def code : Verdict → Nat
  | converged => 0
  | capReached => 1
  | stoppedEarly => 2

/-- The search has converged. -/
def isConverged : Verdict → Bool
  | converged => true
  | _ => false

/-- The verdict in words. -/
def text : Verdict → String
  | converged => "converged"
  | capReached => "maximum number of iterations reached"
  | stoppedEarly => "solver stopped before convergence"

@[simp] theorem isConverged_iff (v : Verdict) : v.isConverged = true ↔ v = converged := by
  cases v <;> simp [isConverged]

end Verdict

/-- The verdict on a termination. -/
def Termination.verdict : Termination → Verdict
  | stopped .converged | stopped .targetReached => .converged
  | stopped .capReached => .capReached
  | _ => .stoppedEarly

/-! ### Counting -/

/-- How often cost and gradient were probed. -/
structure Tally where
  cost : Nat
  gradient : Nat
deriving DecidableEq

namespace Tally

/-- Nothing was probed. -/
def zero : Tally := ⟨0, 0⟩

/-- One probe more. -/
def count {R : Type} {n : Nat} (t : Tally) : Probe R n → Tally
  | .cost _ => { t with cost := t.cost + 1 }
  | .gradient _ => { t with gradient := t.gradient + 1 }

/-- The probes of both together. -/
def add (s t : Tally) : Tally := ⟨s.cost + t.cost, s.gradient + t.gradient⟩

end Tally

/-! ### Outcome -/

/-- The estimate of a maximisation over `n` variables with what is reported about it. -/
structure Outcome (n : Nat) where
  estimate : Vector Float n
  /-- The objective's value at the estimate. -/
  value : Float
  verdict : Verdict
  status : String
  iterations : Nat
  tally : Tally
  /-- The gradient where the solver stopped, if it has one. -/
  gradient : Option (Array Float)

namespace Outcome

variable {n : Nat}

/-- The length of the gradient. -/
def gradientNorm (o : Outcome n) : Option Float :=
  o.gradient.map fun g => (Arrow.dot g.toVector g.toVector).sqrt

/-- An estimate that exists and has finite entries. -/
def checkEstimate : Option (Vector Float n) → Except (OptimizationError Float) (Vector Float n)
  | none => .error .missingEstimate
  | some x =>
    match firstNonFinite? x.toList with
    | some (index, value) =>
      .error (.invalidEstimate index value "Parameter estimates must be finite.")
    | none => .ok x

/-- A value that is finite. -/
def checkValue (value : Float) : Except (OptimizationError Float) Unit :=
  if value.isFinite then .ok () else .error (.nonFiniteCost value)

/-- An outcome whose estimate and value are finite; a fault of the estimate is reported first. -/
def make (estimate : Option (Vector Float n)) (value : Float) (verdict : Verdict) (status : String)
    (iterations : Nat) (tally : Tally) (gradient : Option (Array Float)) :
    Except (OptimizationError Float) (Outcome n) := do
  let estimate ← checkEstimate estimate
  checkValue value
  return ⟨estimate, value, verdict, status, iterations, tally, gradient⟩

end Outcome

end MarkovLogic
