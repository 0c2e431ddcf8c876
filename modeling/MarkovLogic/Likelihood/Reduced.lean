/-
**Objectives of the free weights alone.**

Seen from a maximisation over the free weights, an objective is consulted at the expanded vector,
and of its gradient the entries of the free weights are kept.

Main definitions:

* `Partition.reduceGradient` — the free entries of a gradient of the right length;
* `Partition.evaluate`, `Partition.evaluateGradient` — value and gradient at a reduced vector of any
  length;
* `Partition.checkReduced` — what is asked of a reduced starting point;
* `Partition.lift` — a consultation over the free weights as one over all weights.
-/
import MarkovLogic.Solver.Evaluation
import MarkovLogic.Weights.Partition

set_option autoImplicit false

namespace MarkovLogic.Partition

variable {R : Type} {n : Nat}

/-- The free entries of a gradient, which has to have one entry for each formula. -/
def reduceGradient (p : Partition R n) (answer : Except (OptimizationError R) (Array R)) :
    Except (LearningError R) (Array R) := do
  let g ← answer.mapError .optimization
  let reduced ← p.reduce? g
  return reduced.toArray

/-- The objective's value at a reduced vector. -/
def evaluate (p : Partition R n) (reduced : Array R) :
    Consultation R n (Except (LearningError R) R) :=
  match p.expand? reduced with
  | .error error => .done (.error error)
  | .ok full => .ask (.value .cost full) fun answer => .done (answer.mapError .optimization)

/-- The reduced gradient at a reduced vector. -/
def evaluateGradient (p : Partition R n) (reduced : Array R) :
    Consultation R n (Except (LearningError R) (Array R)) :=
  match p.expand? reduced with
  | .error error => .done (.error error)
  | .ok full => .ask (.gradient full) fun answer => .done (p.reduceGradient answer)

/-- A reduced starting point has an entry for each free weight, all of them finite. -/
def checkReduced [Scalar R] (p : Partition R n) (reduced : Array R) :
    Except (OptimizationError R) Unit :=
  if reduced.size = p.freeCount then checkStart reduced
  else .error (.pointLength p.freeCount reduced.size)

/-- A question about the free weights as one about all weights. -/
def liftQuestion (p : Partition R n) : Consult R p.freeCount → Consult R n
  | .value purpose x => .value purpose (p.expand x)
  | .gradient x => .gradient (p.expand x)

/-- The answer about all weights as one about the free weights. -/
def liftAnswer [DecimalText R] (p : Partition R n) :
    (q : Consult R p.freeCount) → (p.liftQuestion q).Answer → q.Answer
  | .value .., answer => answer
  | .gradient _, answer => (p.reduceGradient answer).mapError LearningError.toOptimization

/-- A consultation over the free weights, held with an objective over all weights. -/
def lift [DecimalText R] {α : Type} (p : Partition R n) (d : Consultation R p.freeCount α) :
    Consultation R n α :=
  d.relay p.liftQuestion p.liftAnswer

end MarkovLogic.Partition
