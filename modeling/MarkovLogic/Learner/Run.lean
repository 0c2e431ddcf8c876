/-
**A learning run.**

A run reads the starting weights, derives the fixed ones, and maximises the objective over the free
ones.  What it has prepared is kept even if the maximisation fails; what an earlier run has learned
is kept until a later one succeeds.

Main definitions:

* `prepare` — the part of a run before the objective is consulted;
* `optimize` — the maximisation over the free weights, or one evaluation if there are none;
* `Learner.run` — the run.
-/
import MarkovLogic.Learner.Basic
import MarkovLogic.Likelihood.Reduced
import MarkovLogic.Network.Satisfaction
import MarkovLogic.Solver.Maximize

set_option autoImplicit false

namespace MarkovLogic

/-- Write records one after the other, as far as their levels are kept. -/
def Dialogue.logAll {Q : Type} {A : Q → Type} (limit : LogLevel) :
    List LogRecord → Dialogue Q A Unit
  | [] => .done ()
  | record :: rest => do
    Dialogue.log limit record
    Dialogue.logAll limit rest

/-! ### Preparation -/

/-- The weights a run starts from. -/
def startingWeights (net : Network Float) (options : LearnOptions) :
    Except (LearningError Float) (Vector Float net.formulaCount) :=
  if options.useInitialWeights then net.currentWeights.mapError .network
  else .ok (Vector.replicate net.formulaCount 0)

/-- The partition of the formulas, by the weights derived from the evidence. -/
def derivePartition (net : Network Float) (mode : EvidenceMode) :
    Except (LearningError Float) (Partition Float net.formulaCount) := do
  Partition.ofFixed net.formulaCount (← net.fixedWeights mode)

/-- What a run works on, or why it cannot begin: the starting weights are read first, then the fixed
ones derived, then these are checked against the number of formulas. -/
def prepare (net : Network Float) (mode : EvidenceMode) (options : LearnOptions) :
    Except (LearningError Float) (Preparation net.formulaCount) := do
  let start ← startingWeights net options
  let partition ← derivePartition net mode
  return ⟨partition, partition.reduce start, options⟩

/-- What is recorded during the preparation.  If the starting weights cannot be read, no weight is
derived. -/
def prepareRecords (net : Network Float) (mode : EvidenceMode) (options : LearnOptions) :
    List LogRecord :=
  match startingWeights net options with
  | .error _ => []
  | .ok _ => net.fixedRecords mode

/-- The record of a preparation that succeeded. -/
def Preparation.record {n : Nat} (p : Preparation n) : LogRecord :=
  let fixed := p.partition.fixedEntries.length
  ⟨.info, s!"starting optimization: {n} formulas, {fixed} fixed, {p.partition.freeCount} free"⟩

/-! ### Maximisation -/

/-- The diagnostics of a maximisation. -/
def Diagnostics.ofOutcome {n : Nat} (o : Outcome n) : Diagnostics :=
  { logLikelihood := o.value
    gradient := o.gradient
    gradientNorm := o.gradientNorm
    iterations := o.iterations
    tally := o.tally
    verdict := o.verdict
    status := o.status }

/-- The diagnostics of a run without free weights, at the value of the fixed ones. -/
def Diagnostics.nothingFree (value : Float) : Diagnostics :=
  { logLikelihood := value
    gradient := none
    gradientNorm := none
    iterations := 0
    tally := ⟨1, 0⟩
    verdict := .converged
    status := "no free weights" }

/-- The records of the end of a run: the figures, and a warning unless it has converged. -/
def Diagnostics.records (d : Diagnostics) : List LogRecord :=
  let norm := match d.gradientNorm with
    | some norm => Decimal.scientific 3 norm
    | none => "n/a"
  let figures : LogRecord := ⟨.info,
    s!"log-likelihood: {Decimal.fixed 16 d.logLikelihood}, gradient norm: {norm}, " ++
      s!"iterations: {d.iterations}, function evaluations: {d.tally.cost}, " ++
      s!"warning flag: {d.verdict.code}"⟩
  if d.verdict.isConverged then [figures]
  else
    [figures, ⟨.warn, s!"weight learning did not converge ({d.verdict.text}): {d.status}"⟩]

/-- Maximise over the free weights of a preparation; without any, evaluate the objective once. -/
def optimize {n : Nat} (level : LogLevel) (allowance : Nat) (p : Preparation n) :
    Consultation Float n
      (Except (LearningError Float) (Vector Float p.partition.freeCount × Diagnostics)) :=
  if p.partition.freeCount = 0 then do
    match ← p.partition.evaluate p.reduced.toArray with
    | .error error => return .error error
    | .ok value => return .ok (p.reduced, .nothingFree value)
  else do
    match ← p.partition.lift (maximize level p.options.settings allowance p.reduced) with
    | .error error => return .error (.optimization error)
    | .ok outcome => return .ok (outcome.estimate, .ofOutcome outcome)

/-! ### The run -/

/-- The result of a run, with the learner it leaves behind. -/
abbrev RunResult (n : Nat) : Type := Learner n × Except (LearningError Float) (Learned n)

/-- A run that fails leaves its error and the phase. -/
def Learner.fail {n : Nat} (learner : Learner n) (error : LearningError Float) : RunResult n :=
  ({ learner with phase := .failed }, .error error)

/-- A run that succeeds leaves the weights, also in reduced form. -/
def Learner.succeed {n : Nat} (learner : Learner n) (p : Preparation n)
    (reduced : Vector Float p.partition.freeCount) (diagnostics : Diagnostics) : RunResult n :=
  let found : Preparation n := { p with reduced := reduced }
  ({ learner with phase := .converged, preparation := some found, weights := some found.weights },
    .ok ⟨found.weights, diagnostics⟩)

/-- The part of a run from its preparation on. -/
def Learner.complete {n : Nat} (learner : Learner n) (level : LogLevel) (allowance : Nat)
    (p : Preparation n) : Consultation Float n (RunResult n) := do
  let learner : Learner n := { learner with phase := .initialized, preparation := some p }
  Dialogue.log level p.record
  let learner : Learner n := { learner with phase := .optimizing }
  match ← optimize level allowance p with
  | .error error => return learner.fail error
  | .ok (reduced, diagnostics) =>
    Dialogue.logAll level diagnostics.records
    return learner.succeed p reduced diagnostics

/-- A learning run on a network with evidence read in a mode, in conversation with the objective.
Line searches have an allowance of rounds. -/
def Learner.run (net : Network Float) (mode : EvidenceMode) (backend : Backend) (level : LogLevel)
    (allowance : Nat) (options : LearnOptions) (learner : Learner net.formulaCount) :
    Consultation Float net.formulaCount (RunResult net.formulaCount) :=
  match backend.require with
  | .error error => .done (learner, .error error)
  | .ok () => do
    Dialogue.logAll level (prepareRecords net mode options)
    match prepare net mode options with
    | .error error => return learner.fail error
    | .ok p => learner.complete level allowance p

end MarkovLogic
