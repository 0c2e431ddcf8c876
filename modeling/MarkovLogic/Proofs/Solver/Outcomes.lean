/-
**What stands behind an outcome.**

A maximisation that succeeds has found the estimate and its value to be finite, and its descent has
had a result.  This module takes such a descent apart once, whoever answers it: it has left a trail
of iterates, and what it hands over is the best point of the trail.

Main definitions:

* `Searched` — the parts of a descent with a result.

Main results:

* `Settings.criteria_of_eq_ok` — what takes the place of an omitted tolerance;
* `isFinite_of_outcome` — **value and estimate of an outcome are finite**;
* `exists_searched_of_unfolds_observedDescent` — **the parts of a descent with a result**;
* `Searched.bestOf` — **what a descent hands over is the best of its iterates**.
-/
import MarkovLogic.Proofs.Solver.Memoryless
import MarkovLogic.Proofs.Solver.Trail

set_option autoImplicit false

namespace MarkovLogic

open QuasiNewton

variable {n : Nat} {level : LogLevel} {settings : Settings} {criteria : Criteria}
  {allowance : Nat} {start : Vector Float n}

/-! ### Criteria -/

/-- What takes the place of an omitted tolerance. -/
theorem Settings.criteria_of_eq_ok (h : settings.criteria n = .ok criteria) :
    criteria.gradient = settings.tolerances.gradient.getD rootEpsilon ∧
      criteria.cost = settings.tolerances.cost.getD machineEpsilon ∧
      criteria.cap = settings.tolerances.iterations.getD (200 * max n 1) := by
  obtain ⟨_, -, h⟩ := bind_eq_ok_iff.1 h
  obtain ⟨_, -, h⟩ := bind_eq_ok_iff.1 h
  have hcriteria := Except.ok.inj h
  rw [← hcriteria]
  exact ⟨rfl, rfl, rfl⟩

/-! ### Finite outcomes -/

/-- **Value and estimate of an outcome are finite**, whatever the descent has handed over. -/
theorem isFinite_of_outcome {halt : Halt n} {outcome : Outcome n}
    (h : halt.outcome = .ok outcome) :
    outcome.value.isFinite = true ∧ ∀ x ∈ outcome.estimate.toList, x.isFinite = true := by
  unfold Halt.outcome Outcome.make at h
  obtain ⟨estimate, hestimate, h⟩ := bind_eq_ok_iff.1 h
  obtain ⟨_, hvalue, h⟩ := bind_eq_ok_iff.1 h
  have houtcome := Except.ok.inj h
  rw [← houtcome]
  constructor
  · unfold Outcome.checkValue at hvalue
    split at hvalue
    · assumption
    · cases hvalue
  · unfold Outcome.checkEstimate at hestimate
    dsimp only at hestimate
    split at hestimate
    · cases hestimate
    · rename_i hnone
      obtain rfl := Except.ok.inj hestimate
      exact (firstNonFinite?_eq_none_iff _).1 hnone

/-! ### Searches -/

/-- A search has gone on from the earlier iterates to the last one and has ended there: its events
are what precedes the descent and the evaluations of the probes, up to the last iterate and behind
it.  At its end it remembers the first failure. -/
inductive Searched (level : LogLevel) (criteria : Criteria) (allowance : Nat)
    (start : Vector Float n) :
    List (Event (Consult Float n) Consult.Answer) → FirstFailure Float → List (Iterate n) →
      Iterate n → Halt n → Prop
  | intro {preview course : List (Event (Consult Float n) Consult.Answer)}
      {memory memory' : FirstFailure Float} {earlier : List (Iterate n)} {last : Iterate n}
      {probes final : Probes n} {left : Nat} {halt : Halt n}
      (previewed : Previewed level start preview memory)
      (evaluated : Mediated (evaluate differenceStep) memory (probes ++ final) course memory')
      (trail : Trail criteria allowance start earlier last probes)
      (cap : criteria.cap = last.iteration + left)
      (ends : Ends criteria allowance last left final (.ok halt)) :
      Searched level criteria allowance start (preview ++ course) memory' earlier last halt

/-- **The point that is handed over is the best of the iterates.** -/
theorem Searched.bestOf {events : List (Event (Consult Float n) Consult.Answer)}
    {memory : FirstFailure Float} {earlier : List (Iterate n)} {last : Iterate n} {halt : Halt n}
    (h : Searched level criteria allowance start events memory earlier last halt) :
    BestOf (earlier ++ [last]) halt.bestPoint halt.bestCost := by
  cases h with
  | intro previewed evaluated trail cap ends =>
      obtain ⟨hpoint, hcost⟩ := ends.best_eq
      rw [hpoint, hcost]
      exact trail.bestOf

/-- **The parts of a descent with a result.** -/
theorem exists_searched_of_unfolds_observedDescent
    {events : List (Event (Consult Float n) Consult.Answer)} {halt : Halt n}
    {memory : FirstFailure Float}
    (h : (observedDescent level criteria allowance start).Unfolds events
      (some (.ok halt, memory))) :
    ∃ earlier last, Searched level criteria allowance start events memory earlier last halt := by
  rcases unfolds_observedDescent h with ⟨_, hr, -⟩ | ⟨preview, course, before, rfl, hpreview, hrest⟩
  · cases hr
  · obtain ⟨probes, hprobes, hmediated⟩ := Dialogue.unfolds_mediate hrest
    obtain ⟨earlier, last, front, final, left, htrail, hends, rfl, hcap⟩ :=
      exists_trail_of_unfolds_descend hprobes
    rw [← htrail.iteration] at hcap
    exact ⟨earlier, last, .intro hpreview hmediated htrail hcap hends⟩

end MarkovLogic
