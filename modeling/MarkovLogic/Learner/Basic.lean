/-
**Weight learners.**

A learner belongs to a network and keeps, from run to run, what its latest run prepared and what its
latest successful run found.

Main definitions:

* `Backend` — whether there is anything to maximise with;
* `Phase` — how far a learner has come;
* `Preparation` — the partition, the reduced weights and the options of a run;
* `Learner` — the state between runs;
* `Diagnostics`, `Learned` — what a successful run reports.
-/
import MarkovLogic.Learner.Options
import MarkovLogic.Network.Basic
import MarkovLogic.Solver.Outcome
import MarkovLogic.Weights.Partition

set_option autoImplicit false

namespace MarkovLogic

/-- Whether there is anything to maximise with. -/
inductive Backend where
  | available
  | unavailable
deriving DecidableEq

/-- A backend is there. -/
def Backend.require : Backend → Except (LearningError Float) Unit
  | available => .ok ()
  | unavailable => .error (.backendUnavailable "lbfgs"
    "rebuild with the `lbfgs` cargo feature to enable weight learning")

/-- How far a learner has come. -/
inductive Phase where
  | uninitialized
  | initialized
  | optimizing
  | converged
  | failed
deriving DecidableEq

/-- What a run works on: the partition into fixed and free weights, the free weights, at first those
of the start and after a successful run those found, and the options. -/
structure Preparation (n : Nat) where
  partition : Partition Float n
  reduced : Vector Float partition.freeCount
  options : LearnOptions

/-- The expanded weights of a preparation. -/
def Preparation.weights {n : Nat} (p : Preparation n) : Vector Float n :=
  p.partition.expand p.reduced

/-- A learner of the weights of `n` formulas. -/
structure Learner (n : Nat) where
  phase : Phase
  preparation : Option (Preparation n)
  /-- The weights of the latest successful run. -/
  weights : Option (Vector Float n)

/-- A learner that has made no run. -/
def Learner.fresh (n : Nat) : Learner n := ⟨.uninitialized, none, none⟩

/-- What a successful run reports about its maximisation. -/
structure Diagnostics where
  logLikelihood : Float
  gradient : Option (Array Float)
  gradientNorm : Option Float
  iterations : Nat
  tally : Tally
  verdict : Verdict
  status : String

/-- The result of a successful run. -/
structure Learned (n : Nat) where
  weights : Vector Float n
  diagnostics : Diagnostics

end MarkovLogic
