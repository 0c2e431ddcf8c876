/-
**Objectives.**

An objective gives a log-likelihood for each vector of weights, and possibly its gradient, and says
how the evidence is to be read where weights are fixed.  This module is about objectives whose
answers depend on the weights alone; a maximisation accepts any respondent.

Main definitions:

* `Objective` — value, gradient and mode;
* `Objective.softened` — the same objective with evidence read by degrees;
* `Objective.respond` — the objective as a respondent without a memory.
-/
import MarkovLogic.Network.Basic
import MarkovLogic.Solver.Query

set_option autoImplicit false

namespace MarkovLogic

variable {R : Type}

/-- A log-likelihood as a function of the weights.  Without a gradient of its own an objective says
so, and differences take its place. -/
structure Objective (R : Type) where
  value : Array R → Except (OptimizationError R) R
  gradient : Array R → Except (OptimizationError R) (Array R) := fun _ =>
    .error .gradientNotImplemented
  mode : EvidenceMode := .hard

namespace Objective

/-- The same objective with evidence read by degrees. -/
def softened (o : Objective R) : Objective R := { o with mode := .soft }

/-- What the objective answers. -/
def answer {n : Nat} (o : Objective R) : (q : Consult R n) → q.Answer
  | .value _ x => o.value x.toArray
  | .gradient x => o.gradient x.toArray

/-- The objective as a respondent, which remembers nothing. -/
def respond {n : Nat} (o : Objective R) (_ : Unit) (q : Consult R n) : q.Answer × Unit :=
  (o.answer q, ())

end Objective

end MarkovLogic
