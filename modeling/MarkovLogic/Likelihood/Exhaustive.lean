/-
**The likelihood over all worlds.**

The worlds are listed one by one, each by how often every formula is satisfied in it.  A world's
score is the weighted sum of its counts; its probability is proportional to the exponential of the
score.  The log-likelihood adds up the logarithms of the probabilities of the training worlds, and
its gradient is the counts observed in them less those expected.

Main definitions:

* `WorldTable` — the counts of all worlds;
* `Exhaustive`, `Exhaustive.make` — a table with the training worlds, checked for use;
* `Exhaustive.value`, `Exhaustive.gradient` — the log-likelihood and its gradient;
* `Exhaustive.objective` — both, for weights of any length.
-/
import MarkovLogic.Error.Learning
import MarkovLogic.Likelihood.LogSumExp
import MarkovLogic.Likelihood.Objective
import MarkovLogic.Scalar.Arrow
import MarkovLogic.Scalar.Finite

set_option autoImplicit false

namespace MarkovLogic

variable {R : Type}

/-- How often each of the formulas is satisfied in each world. -/
structure WorldTable (R : Type) (formulas : Nat) where
  worlds : Array (Vector R formulas)

namespace WorldTable

variable {formulas : Nat}

/-- All counts, world by world. -/
def counts (t : WorldTable R formulas) : List R := t.worlds.toList.flatMap Vector.toList

/-- The weighted sum of the counts of each world. -/
def scores [Zero R] [Add R] [Mul R] (t : WorldTable R formulas) (w : Vector R formulas) :
    Vector R t.worlds.size :=
  t.worlds.toVector.map fun world => Arrow.dot world w

/-- The sum of the counts of formula `j`, each times the number that goes with its world.  The
products are added from left to right; a table of one formula is added up in eight lanes. -/
def weigh [Zero R] [Add R] [Mul R] (t : WorldTable R formulas) (p : Vector R t.worlds.size)
    (j : Fin formulas) : R :=
  let terms := List.zipWith (fun world q => world[j] * q) t.worlds.toList p.toList
  if formulas = 1 then blockedSum terms else runningSum terms

end WorldTable

/-- A table of worlds with the worlds that were observed, fit for use: there are worlds, some were
observed, and all counts are finite. -/
structure Exhaustive (R : Type) [Scalar R] (formulas : Nat) where
  table : WorldTable R formulas
  training : List (Fin table.worlds.size)
  observedSome : training ≠ []
  finite : firstNonFinite? table.counts = none

/-- The indices of a list as positions below a bound, or the first that is none. -/
def positionsBelow (bound : Nat) : List Nat → Except Nat (List (Fin bound))
  | [] => .ok []
  | i :: rest =>
    if h : i < bound then (positionsBelow bound rest).map (⟨i, h⟩ :: ·) else .error i

theorem ne_nil_of_positionsBelow {bound : Nat} {indices : List Nat} {positions : List (Fin bound)}
    (h : positionsBelow bound indices = .ok positions) (some : indices ≠ []) : positions ≠ [] := by
  cases indices with
  | nil => exact absurd rfl some
  | cons i rest =>
    simp only [positionsBelow] at h
    split at h
    · cases hr : positionsBelow bound rest with
      | error d => rw [hr] at h; cases h
      | ok tail => rw [hr] at h; cases h; exact List.cons_ne_nil _ _
    · cases h

namespace Exhaustive

variable {formulas : Nat} [Scalar R]

/-- A table with training worlds, checked in this order: there are worlds, some were observed, these
are in the table, and the counts are finite. -/
def make [DecimalText R] (table : WorldTable R formulas) (training : List Nat) :
    Except (LearningError R) (Exhaustive R formulas) :=
  if table.worlds.isEmpty then
    .error (.invalidObjectiveData "0 worlds" "at least one world is required")
  else if observedSome : training = [] then
    .error (.invalidObjectiveData "0 databases" "at least one training world is required")
  else
    match inTable : positionsBelow table.worlds.size training with
    | .error d =>
      .error (.invalidObjectiveData s!"training world {d}" "index outside the world set")
    | .ok positions =>
      match finite : firstNonFinite? table.counts with
      | some (_, count) =>
        .error (.invalidObjectiveData (DecimalText.decimal count) "counts must be finite")
      | none => .ok ⟨table, positions, ne_nil_of_positionsBelow inTable observedSome, finite⟩

variable [Zero R] [Add R]

/-- The counts of the training worlds added up, from left to right. -/
def observed (e : Exhaustive R formulas) : Vector R formulas :=
  e.training.foldl (fun sum d => Vector.zipWith (· + ·) sum e.table.worlds[d])
    (Vector.replicate formulas 0)

variable [Sub R] [Mul R] [ExpLog R]

/-- The log-likelihood of the training worlds. -/
def value (e : Exhaustive R formulas) (w : Vector R formulas) : R :=
  let scores := e.table.scores w
  let logZ := logSumExp scores.toList
  runningSum (e.training.map fun d => scores[d] - logZ)

/-- The counts observed less those expected. -/
def gradient (e : Exhaustive R formulas) (w : Vector R formulas) : Vector R formulas :=
  let scores := e.table.scores w
  let logZ := logSumExp scores.toList
  let probabilities := scores.map fun s => ExpLog.exp (s - logZ)
  let expected := Vector.ofFn (e.table.weigh probabilities)
  Vector.zipWith (fun o x => o - x * Scalar.ofCount e.training.length) e.observed expected

/-- The log-likelihood as an objective, which refuses weights of another length. -/
def objective (e : Exhaustive R formulas) : Objective R where
  value w :=
    if h : w.size = formulas then .ok (e.value ⟨w, h⟩) else .error (.pointLength formulas w.size)
  gradient w :=
    if h : w.size = formulas then .ok (e.gradient ⟨w, h⟩).toArray
    else .error (.pointLength formulas w.size)

end Exhaustive

end MarkovLogic
