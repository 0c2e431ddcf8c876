/-
**Weighted formulas and their groundings.**

A network lists weighted formulas.  Each formula has groundings in the training database, and the
evidence says of each ground formula whether it holds, or to what degree.  Every question may fail.

Main definitions:

* `EvidenceMode` — whether evidence is taken as true or false, or by degrees;
* `GroundFormula`, `GroundFormula.degree` — a ground formula and its truth degree;
* `Network` — the formulas, their weights, their groundings, and those whose weight is to be fixed;
* `Network.currentWeights` — the weights of all formulas.
-/
import MarkovLogic.Error.Network

set_option autoImplicit false

namespace MarkovLogic

/-- How evidence is read. -/
inductive EvidenceMode where
  /-- A ground formula holds or does not. -/
  | hard
  /-- A ground formula holds to a degree. -/
  | soft
deriving DecidableEq

variable {R : Type}

/-- The degree of a truth value. -/
def degreeOf [Zero R] [One R] (truth : Bool) : R := if truth then 1 else 0

/-- What the evidence says of a ground formula.  Without soft evidence of its own a formula has
the degree of its truth value. -/
structure GroundFormula (R : Type) [Zero R] [One R] where
  truth : Except NetworkError Bool
  softDegree : Except NetworkError R := truth.map degreeOf

/-- The truth degree in a mode. -/
def GroundFormula.degree [Zero R] [One R] (g : GroundFormula R) : EvidenceMode →
    Except NetworkError R
  | .hard => g.truth.map degreeOf
  | .soft => g.softDegree

/-- Weighted formulas with their groundings and the evidence. -/
structure Network (R : Type) [Zero R] [One R] where
  formulaCount : Nat
  weight : Nat → Except NetworkError R
  /-- The formulas whose weight is derived from the evidence and then kept. -/
  fixedFormulas : List Nat
  label : Nat → String := fun i => s!"F#{i}"
  /-- The groundings of a formula; listing them may fail as a whole or anywhere. -/
  groundings : Nat → Except NetworkError (List (Except NetworkError (GroundFormula R)))

/-- Read the entries from position `k` on behind those read so far; the first failure stops the
reading. -/
def readOnto {ε : Type} {n : Nat} (read : Nat → Except ε R) :
    (left k : Nat) → Vector R k → k + left = n → Except ε (Vector R n)
  | 0, _, entries, all => .ok (entries.cast all)
  | left + 1, k, entries, all =>
    match read k with
    | .error error => .error error
    | .ok entry => readOnto read left (k + 1) (entries.push entry) (by omega)

/-- Read the entries of a vector in order; the first failure stops the reading. -/
def readEntries {ε : Type} (read : Nat → Except ε R) (n : Nat) : Except ε (Vector R n) :=
  readOnto read n 0 #v[] (Nat.zero_add n)

/-- The weights of all formulas. -/
def Network.currentWeights [Zero R] [One R] (net : Network R) :
    Except NetworkError (Vector R net.formulaCount) :=
  readEntries net.weight net.formulaCount

end MarkovLogic
