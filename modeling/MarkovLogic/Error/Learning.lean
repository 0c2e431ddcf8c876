/-
**What can go wrong in weight learning.**

Main definitions:

* `LearningError`, `LearningError.message` — refused options, formulas whose weight cannot be fixed,
  malformed data, vectors of the wrong length, and the errors of network and optimisation;
* `LearningError.isConfiguration` — the errors raised before any work starts;
* `LearningError.cause?` — the text of the error underneath;
* `LearningError.toOptimization` — the same error as seen from inside a maximisation.
-/
import MarkovLogic.Error.Network
import MarkovLogic.Error.Optimization

set_option autoImplicit false

namespace MarkovLogic

/-- The two kinds of weight vector: an entry per formula, or an entry per free formula. -/
inductive WeightSpace where
  | full
  | reduced
deriving DecidableEq

/-- The name of the space in messages. -/
def WeightSpace.name : WeightSpace → String
  | .full => "full"
  | .reduced => "reduced"

/-- A failure of weight learning. -/
inductive LearningError (R : Type) where
  /-- There is nothing to maximise with. -/
  | backendUnavailable (backend hint : String)
  | invalidOption (key value reason : String)
  /-- The satisfaction ratio of a formula has no finite logarithm. -/
  | degenerateStatistics (formula : Nat) (label : String) (groundings : Nat) (satisfied : R)
      (reason : String)
  /-- A truth degree lies outside the unit interval. -/
  | invalidTruthDegree (formula : Nat) (value : R)
  | fixedIndexOutOfRange (index formulas : Nat)
  | invalidObjectiveData (detail reason : String)
  | lengthMismatch (space : WeightSpace) (expected found : Nat)
  /-- An error of the network, unchanged. -/
  | network (error : NetworkError)
  /-- An error of the maximisation, unchanged. -/
  | optimization (error : OptimizationError R)
deriving DecidableEq

namespace LearningError

variable {R : Type}

/-- The error is raised before any work starts. -/
def isConfiguration : LearningError R → Bool
  | backendUnavailable .. | invalidOption .. => true
  | _ => false

variable [DecimalText R]

open DecimalText (decimal)

/-- The text of the failure. -/
def message : LearningError R → String
  | backendUnavailable backend hint => s!"Optimization backend '{backend}' is unavailable: {hint}"
  | invalidOption key value reason => s!"Invalid option {key}={value}: {reason}"
  | degenerateStatistics formula label groundings satisfied reason =>
    s!"Cannot fix weight of F#{formula} {label}: {reason} " ++
      s!"(groundings = {groundings}, satisfied = {decimal satisfied})"
  | invalidTruthDegree formula value =>
    s!"Truth degree {decimal value} for a grounding of F#{formula} is outside [0, 1]"
  | fixedIndexOutOfRange index formulas =>
    s!"Fixed-weight index {index} out of range for {formulas} formulas"
  | invalidObjectiveData detail reason => s!"Invalid objective data ({detail}): {reason}"
  | lengthMismatch space expected found =>
    s!"{space.name} weight vector has length {found}, expected {expected}"
  | network error => s!"Model error: {error.message}"
  | optimization error => s!"Optimization error: {error.message}"

/-- The text of the error underneath, if there is one. -/
def cause? : LearningError R → Option String
  | network error => some error.message
  | optimization error => some error.message
  | _ => none

/-- The error as an objective reports it to a maximisation: an error of the maximisation keeps its
meaning, a wrong length stays one, and anything else is a failed evaluation with its text. -/
def toOptimization : LearningError R → OptimizationError R
  | optimization error => error
  | lengthMismatch _ expected found => .pointLength expected found
  | error => .objectiveFailed error.message

@[simp] theorem toOptimization_optimization (error : OptimizationError R) :
    (LearningError.optimization error).toOptimization = error := rfl

end LearningError

end MarkovLogic
