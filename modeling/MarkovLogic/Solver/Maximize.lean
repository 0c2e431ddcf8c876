/-
**Maximising an objective.**

The starting point and the tolerances are checked, the descent on the cost is held as a conversation
with the objective, and its end is turned into an outcome.  An evaluation that failed at any time
during the run makes the run fail with the first such failure.

Main definitions:

* `previewStart` — at the most talkative level cost and gradient of the start are recorded first;
* `maximize` — the maximisation.
-/
import MarkovLogic.Decimal.Rounded
import MarkovLogic.Solver.Evaluation
import MarkovLogic.Solver.QuasiNewton

set_option autoImplicit false

namespace MarkovLogic

variable {n : Nat}

/-- The step of the difference quotients. -/
def differenceStep : Float := rootEpsilon

/-- Evaluate cost and gradient at the start and record them.  A cost that cannot be evaluated is an
error; a gradient that cannot be evaluated is left out of the record. -/
def previewStart (start : Vector Float n) (memory : FirstFailure Float) :
    Consultation Float n (Except (OptimizationError Float) Unit × FirstFailure Float) := do
  let (cost, memory) ← costAt .cost start memory
  match cost with
  | .error error => return (.error error, memory)
  | .ok cost =>
    let (gradient, memory) ← gradientAt differenceStep start memory
    let slope := match gradient with
      | .ok g => ", ||grad|| = " ++ Decimal.fixed 6 (Arrow.dot g g).sqrt
      | .error _ => ""
    Dialogue.log .debug ⟨.debug, "init: ell(theta0) = " ++ Decimal.fixed 6 (-cost) ++ slope⟩
    return (.ok (), memory)

/-- The outcome of a finished descent: the estimate is the best point, the gradient the last one. -/
def QuasiNewton.Halt.outcome (h : QuasiNewton.Halt n) :
    Except (OptimizationError Float) (Outcome n) :=
  Outcome.make (some h.bestPoint) (-h.bestCost) h.termination.verdict h.termination.status
    h.iterations h.tally (h.gradient.map fun g => (Arrow.neg g).toArray)

/-- The descent and its outcome, after the start has been checked. -/
def runDescent (level : LogLevel) (criteria : Criteria) (allowance : Nat) (start : Vector Float n)
    (memory : FirstFailure Float) :
    Consultation Float n (Except (OptimizationError Float) (Outcome n)) := do
  let (halt, memory) ←
    (QuasiNewton.descend criteria allowance start).mediate (evaluate differenceStep) memory
  match halt, memory with
  | .error error, _ => return .error error
  | .ok _, some error =>
    Dialogue.log level ⟨.debug, "objective failed during the run: " ++ error.message⟩
    return .error error
  | .ok halt, none => return halt.outcome

/-- Maximise an objective from a starting point.  Line searches have an allowance of rounds. -/
def maximize (level : LogLevel) (settings : Settings) (allowance : Nat) (start : Vector Float n) :
    Consultation Float n (Except (OptimizationError Float) (Outcome n)) :=
  match checkStart start.toArray, settings.criteria n with
  | .error error, _ => return .error error
  | .ok (), .error error => return .error error
  | .ok (), .ok criteria =>
    if level = .debug then do
      match ← previewStart start none with
      | (.error error, _) => return .error error
      | (.ok (), memory) => runDescent level criteria allowance start memory
    else runDescent level criteria allowance start none

end MarkovLogic
