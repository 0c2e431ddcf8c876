/-
**What can go wrong in a maximisation.**

Main definitions:

* `OptimizationError`, `OptimizationError.message` — settings that are refused, evaluations that
  fail, results that are not finite, and faults reported by a solver;
* `Raised`, `Raised.toError` — whatever a solver may raise, and the error it becomes: an error of
  the objective comes through unchanged, a fault keeps its kind and text.
-/
import MarkovLogic.Scalar

set_option autoImplicit false

namespace MarkovLogic

/-- The kinds of fault that a solver reports by name. -/
inductive FaultKind where
  | invalidParameter
  | notImplemented
  | notInitialized
  | conditionViolated
  | checkpointNotFound
  | potentialBug
  | impossible
deriving DecidableEq

/-- How a message about such a fault begins. -/
def FaultKind.heading : FaultKind → String
  | .invalidParameter => "Invalid parameter"
  | .notImplemented => "Not implemented"
  | .notInitialized => "Not initialized"
  | .conditionViolated => "Condition violated"
  | .checkpointNotFound => "Checkpoint not found"
  | .potentialBug => "Potential bug"
  | .impossible => "Impossible error"

/-- A failure to set up, run or complete a maximisation. -/
inductive OptimizationError (R : Type) where
  /-- The objective has no gradient of its own. -/
  | gradientNotImplemented
  /-- A gradient has the wrong number of entries. -/
  | gradientLength (expected found : Nat)
  /-- An entry of a gradient is not finite. -/
  | invalidGradient (index : Nat) (value : R) (reason : String)
  /-- A point has the wrong number of entries. -/
  | pointLength (expected found : Nat)
  /-- An entry of the starting point is not finite. -/
  | invalidStart (index : Nat) (value : R)
  | invalidGradientTolerance (tolerance : R) (reason : String)
  | invalidCostTolerance (tolerance : R) (reason : String)
  | invalidIterationCap (cap : Nat) (reason : String)
  /-- No criterion for stopping is given at all. -/
  | noTolerances
  | unknownLineSearch (name reason : String)
  | invalidMemory (pairs : Nat) (reason : String)
  /-- The objective's value is not finite. -/
  | nonFiniteCost (value : R)
  /-- The objective failed for a reason of its own. -/
  | objectiveFailed (text : String)
  /-- An entry of the estimate is not finite. -/
  | invalidEstimate (index : Nat) (value : R) (reason : String)
  | missingEstimate
  /-- A fault that the solver reports by name. -/
  | fault (kind : FaultKind) (text : String)
  /-- An error that is none of the solver's own. -/
  | foreign (text : String)
  | unknown
deriving DecidableEq

namespace OptimizationError

variable {R : Type} [DecimalText R]

open DecimalText (decimal)

/-- The text of the failure. -/
def message : OptimizationError R → String
  | gradientNotImplemented => "Analytic gradient not implemented"
  | gradientLength expected found =>
    s!"Gradient dimension mismatch: expected {expected}, found {found}"
  | invalidGradient index value reason =>
    s!"Invalid gradient at index {index}: {decimal value}: {reason}"
  | pointLength expected found =>
    s!"Parameter dimension mismatch: expected {expected}, found {found}"
  | invalidStart index value =>
    s!"Invalid starting point at index {index}: {decimal value}, must be finite"
  | invalidGradientTolerance tolerance reason =>
    s!"Invalid gradient tolerance {decimal tolerance}: {reason}"
  | invalidCostTolerance tolerance reason =>
    s!"Invalid cost function change tolerance {decimal tolerance}: {reason}"
  | invalidIterationCap cap reason => s!"Invalid maximum iterations {cap}: {reason}"
  | noTolerances => "No tolerances provided"
  | unknownLineSearch name reason => s!"Invalid line searcher '{name}': {reason}"
  | invalidMemory pairs reason => s!"Invalid L-BFGS memory {pairs}: {reason}"
  | nonFiniteCost value => s!"Non-finite cost value: {decimal value}"
  | objectiveFailed text => s!"Objective evaluation failed: {text}"
  | invalidEstimate index value reason =>
    s!"Invalid estimated parameter at index {index}: {decimal value}: {reason}"
  | missingEstimate => "Missing estimated parameters (theta hat)"
  | fault kind text => s!"{kind.heading}: {text}"
  | foreign text => s!"Backend error: {text}"
  | unknown => "Unknown error"

end OptimizationError

/-- Whatever a solver may raise. -/
inductive Raised (R : Type) where
  /-- An error of the objective on its way through the solver. -/
  | objective (error : OptimizationError R)
  /-- A fault that the solver reports by name. -/
  | fault (kind : FaultKind) (text : String)
  /-- Anything else. -/
  | foreign (text : String)

/-- The error that is reported for what a solver raised. -/
def Raised.toError {R : Type} : Raised R → OptimizationError R
  | objective error => error
  | fault kind text => .fault kind text
  | foreign text => .foreign text

@[simp] theorem Raised.toError_objective {R : Type} (error : OptimizationError R) :
    (Raised.objective error).toError = error := rfl

end MarkovLogic
