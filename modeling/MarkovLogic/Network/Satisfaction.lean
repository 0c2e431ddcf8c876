/-
**Weights from satisfaction.**

A formula whose weight is fixed gets the logarithm of the share of its groundings that the evidence
satisfies, each counted by its truth degree.

Main definitions:

* `Satisfaction` — how many groundings there are and how much of them is satisfied;
* `Network.satisfaction` — the groundings of one formula counted;
* `FixedFormula`, `Network.fixFormula` — the weight derived for one formula, with its grounds;
* `Network.fixFormulas` — the formulas of a list in order, up to the first failure;
* `Network.fixedWeights` — the table of the weights of all formulas that are to be fixed.
-/
import MarkovLogic.Error.Learning
import MarkovLogic.Log
import MarkovLogic.Decimal.Rounded
import MarkovLogic.Network.Basic
import MarkovLogic.Weights.Fixed

set_option autoImplicit false

namespace MarkovLogic

variable {R : Type}

/-- How many groundings a formula has and how much of them is satisfied. -/
structure Satisfaction (R : Type) where
  groundings : Nat
  satisfied : R

/-- The satisfied share. -/
def Satisfaction.ratio [Div R] [Scalar R] (s : Satisfaction R) : R :=
  s.satisfied / Scalar.ofCount s.groundings

/-- The number lies in the unit interval; an undefined one does not. -/
def inUnitInterval [Zero R] [One R] [Scalar R] (d : R) : Bool :=
  !Scalar.isNaN d && !Scalar.less d 0 && !Scalar.less 1 d

variable [Zero R] [One R] [Add R] [Scalar R]

/-- Count the groundings of formula `i` from left to right, on top of what was counted. -/
def countGroundings (mode : EvidenceMode) (i : Nat) :
    List (Except NetworkError (GroundFormula R)) → Satisfaction R →
      Except (LearningError R) (Satisfaction R)
  | [], s => .ok s
  | .error error :: _, _ => .error (.network error)
  | .ok g :: rest, s =>
    match g.degree mode with
    | .error error => .error (.network error)
    | .ok d =>
      if inUnitInterval d then
        countGroundings mode i rest ⟨s.groundings + 1, s.satisfied + d⟩
      else .error (.invalidTruthDegree i d)

/-- The groundings of formula `i`, counted. -/
def Network.satisfaction (net : Network R) (mode : EvidenceMode) (i : Nat) :
    Except (LearningError R) (Satisfaction R) :=
  match net.groundings i with
  | .error error => .error (.network error)
  | .ok groundings => countGroundings mode i groundings ⟨0, 0⟩

/-- A formula with the weight derived for it. -/
structure FixedFormula (R : Type) where
  formula : Nat
  label : String
  ratio : R
  weight : R

variable [Div R] [ExpLog R]

/-- The weight of formula `i` from its satisfaction.  Without groundings, or with none satisfied,
there is no such weight. -/
def Network.weightFrom (net : Network R) (i : Nat) (s : Satisfaction R) :
    Except (LearningError R) (FixedFormula R) :=
  let degenerate (reason : String) : LearningError R :=
    .degenerateStatistics i (net.label i) s.groundings s.satisfied reason
  if s.groundings = 0 then
    .error (degenerate "formula has no groundings in the training database")
  else if Scalar.less 0 s.satisfied then
    .ok ⟨i, net.label i, s.ratio, ExpLog.log s.ratio⟩
  else .error (degenerate "no grounding is satisfied, ln(0) is -infinity")

/-- The weight of formula `i` from its groundings. -/
def Network.fixFormula (net : Network R) (mode : EvidenceMode) (i : Nat) :
    Except (LearningError R) (FixedFormula R) :=
  (net.satisfaction mode i).bind (net.weightFrom i)

/-- The formulas of a list in order, up to the first that fails, and its failure. -/
def Network.fixFormulas (net : Network R) (mode : EvidenceMode) :
    List Nat → List (FixedFormula R) × Except (LearningError R) Unit
  | [] => ([], .ok ())
  | i :: rest =>
    match net.fixFormula mode i with
    | .error error => ([], .error error)
    | .ok fixed =>
      let (others, result) := net.fixFormulas mode rest
      (fixed :: others, result)

/-- The table of a list of formulas. -/
def fixedTable (formulas : List (FixedFormula R)) : FixedWeights R :=
  .ofList (formulas.map fun f => (f.formula, f.weight))

/-- The table of the weights to be kept, if all of them can be derived. -/
def Network.fixedWeights (net : Network R) (mode : EvidenceMode) :
    Except (LearningError R) (FixedWeights R) :=
  let (formulas, result) := net.fixFormulas mode net.fixedFormulas
  result.map fun _ => fixedTable formulas

/-- The record of a derived weight. -/
def FixedFormula.record (f : FixedFormula Float) : LogRecord :=
  ⟨.debug, s!"fixed weight: {Decimal.fixed 6 f.weight}=ln({Decimal.fixed 6 f.ratio}) " ++
    s!"F#{f.formula} {f.label}"⟩

/-- What is recorded while the weights are derived, a weight after the other. -/
def Network.fixedRecords (net : Network Float) (mode : EvidenceMode) : List LogRecord :=
  (net.fixFormulas mode net.fixedFormulas).1.map FixedFormula.record

end MarkovLogic
