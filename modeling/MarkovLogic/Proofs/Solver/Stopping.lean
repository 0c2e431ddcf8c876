/-
**Why a search has stopped.**

A search stops for one of three reasons, and its verdict tells which.  It has converged if the test
of convergence is met at the last iterate, be that the start or the iterate at the cap; it has
reached the cap if the test is not met there and no iteration is left; it has stopped early if it
has begun another iteration and the line search of that has given up, be it the last one allowed.
No other reason ever applies: the test was not met before, and the best cost, being finite, is never
as small as a target of minus infinity.

Main definitions:

* `Iterate.Meets` — the test of convergence;
* `Iterate.GivesUp` — the line search of another iteration has given up;
* `Outcome.TellsWhy` — an outcome tells why the search has stopped at an iterate.

Main results:

* `Outcome.tellsWhy_of_ends` — **the verdict tells why the search has stopped**;
* `exists_ends_of_unfolds_maximize` — a maximisation that succeeds, its trail and its end;
* `exists_trail_of_unfolds_maximize` — **such a maximisation tells why its search has stopped**.
-/
import MarkovLogic.Proofs.Solver.Outcomes

set_option autoImplicit false

namespace MarkovLogic

open QuasiNewton

variable {n : Nat} {criteria : Criteria} {allowance : Nat} {start : Vector Float n}

/-! ### Reasons -/

namespace QuasiNewton

/-- The length of the gradient, or the last change of the cost, is below its tolerance. -/
def Iterate.Meets (criteria : Criteria) (s : Iterate n) : Prop :=
  Arrow.length s.gradient < criteria.gradient ∨ (s.costBefore - s.cost).abs < criteria.cost

theorem Iterate.converged_iff {s : Iterate n} :
    s.converged criteria = true ↔ s.Meets criteria := by
  simp [Iterate.converged, Iterate.Meets]

theorem Iterate.not_meets_of_unconverged {s : Iterate n} (h : s.converged criteria = false) :
    ¬s.Meets criteria := by
  intro hmeets
  rw [Iterate.converged_iff.2 hmeets] at h
  cases h

/-- Another iteration was begun at the iterate, and its line search has given up, with these
probes. -/
structure Iterate.GivesUp (criteria : Criteria) (allowance : Nat) (s : Iterate n)
    (search : Probes n) : Prop where
  unmet : ¬s.Meets criteria
  begun : s.iteration < criteria.cap
  given : ∃ failure probes,
    (s.stepping criteria allowance).Unfolds search (some (.error failure, probes))

end QuasiNewton

/-- The outcome tells why a search has stopped at an iterate, behind which it has made the probes
`final`. -/
structure Outcome.TellsWhy (criteria : Criteria) (allowance : Nat) (s : Iterate n)
    (final : Probes n) (o : Outcome n) : Prop where
  bounded : o.iterations ≤ criteria.cap
  counted : o.iterations = s.iteration ∨
    o.iterations = s.iteration + 1 ∧ s.GivesUp criteria allowance final
  converged : o.verdict = .converged ↔ s.Meets criteria
  capReached : o.verdict = .capReached ↔
    o.iterations = criteria.cap ∧ ¬s.Meets criteria ∧ ¬s.GivesUp criteria allowance final
  stoppedEarly : o.verdict = .stoppedEarly ↔ s.GivesUp criteria allowance final
  /-- A search that has converged has not done so by reaching a target. -/
  status : o.verdict = .converged → o.status = (Termination.stopped .converged).status

/-- **The verdict tells why the search has stopped.** -/
theorem Outcome.tellsWhy_of_ends {s : Iterate n} {left : Nat} {final : Probes n} {halt : Halt n}
    {outcome : Outcome n} (hcap : criteria.cap = s.iteration + left)
    (hends : Ends criteria allowance s left final (.ok halt))
    (houtcome : halt.outcome = .ok outcome) : outcome.TellsWhy criteria allowance s final := by
  obtain rfl := outcome_eq_ok houtcome
  cases hends with
  | converged hconverged =>
      have hmeets : s.Meets criteria := Iterate.converged_iff.1 hconverged
      exact {
        bounded := by
          change s.iteration ≤ criteria.cap
          omega
        counted := .inl rfl
        converged := iff_of_true rfl hmeets
        capReached := iff_of_false nofun fun h => h.2.1 hmeets
        stoppedEarly := iff_of_false nofun fun h => h.unmet hmeets
        status := fun _ => rfl }
  | capReached hunconverged =>
      have hunmet := Iterate.not_meets_of_unconverged hunconverged
      -- no iteration is left, so none was begun
      have hidle : ¬s.GivesUp criteria allowance [] := by
        intro h
        have hbegun := h.begun
        omega
      exact {
        bounded := by
          change s.iteration ≤ criteria.cap
          omega
        counted := .inl rfl
        converged := iff_of_false nofun hunmet
        capReached := iff_of_true rfl ⟨by
          change s.iteration = criteria.cap
          omega, hunmet, hidle⟩
        stoppedEarly := iff_of_false nofun hidle
        status := nofun }
  | @gaveUp left _ failure probes hunconverged given =>
      have hunmet := Iterate.not_meets_of_unconverged hunconverged
      have hgives : s.GivesUp criteria allowance final :=
        ⟨hunmet, by omega, failure, probes, given⟩
      exact {
        bounded := by
          change s.iteration + 1 ≤ criteria.cap
          omega
        counted := .inr ⟨rfl, hgives⟩
        converged := iff_of_false nofun hunmet
        capReached := iff_of_false nofun fun h => h.2.2 hgives
        stoppedEarly := iff_of_true rfl hgives
        status := nofun }

/-! ### Targets -/

/-- A cost that is told is finite. -/
def Probe.FiniteCost : (q : Probe Float n) → q.Answer → Prop
  | .cost _, .ok c => c.isFinite = true
  | .cost _, .error _ => True
  | .gradient _, _ => True

/-- **Evaluations tell finite costs alone**, whatever the objective answers. -/
theorem ensures_finiteCost (memory : FirstFailure Float) (q : Probe Float n) :
    Dialogue.Ensures (fun _ _ => True) (evaluate differenceStep memory q)
      fun r => q.FiniteCost r.1 := by
  cases q with
  | gradient x =>
      intro events r _ _
      trivial
  | cost x =>
      refine Dialogue.ensures_ask fun answer _ => ?_
      cases answer with
      | error error => exact Dialogue.ensures_done trivial
      | ok v =>
          refine Dialogue.ensures_done ?_
          dsimp only
          split
          · rename_i hfinite
            exact (Double.isFinite_neg v).trans hfinite
          · trivial

/-- No iterate of an evaluated trail has reached a target of minus infinity. -/
theorem untargeted_of_trail {memory memory' : FirstFailure Float} {earlier : List (Iterate n)}
    {last : Iterate n} {probes final : Probes n}
    {course : List (Event (Consult Float n) Consult.Answer)}
    (hmediated : Mediated (evaluate differenceStep) memory (probes ++ final) course memory')
    (htrail : Trail criteria allowance start earlier last probes) :
    ∀ t ∈ earlier ++ [last], ¬t.bestCost ≤ -(1.0 / 0.0) := by
  -- evaluations do not tell other costs, so the best cost of every iterate is one of those
  have hadmitted : Admitted Probe.FiniteCost (probes ++ final) :=
    hmediated.admitted ensures_finiteCost fun _ _ _ => trivial
  intro t ht
  obtain ⟨first, hsound⟩ :=
    htrail.sound (fun x c hc => hc) (admitted_append.1 hadmitted).1 t ht
  have hbest : t.bestCost.isFinite = true := hsound.best.1
  exact Double.not_le_negInf hbest

/-! ### Maximisations -/

variable {level : LogLevel} {settings : Settings}

/-- A maximisation that succeeds has left a trail, and its search has ended at the last iterate of
it; the outcome is that of this end. -/
theorem exists_ends_of_unfolds_maximize
    {events : List (Event (Consult Float n) Consult.Answer)} {outcome : Outcome n}
    (h : (maximize level settings allowance start).Unfolds events (some (.ok outcome))) :
    ∃ criteria earlier last probes final left halt memory preview course notes,
      settings.criteria n = .ok criteria ∧
      events = preview ++ course ++ notes ∧ Silent notes ∧ Previewed level start preview memory ∧
      Mediated (evaluate differenceStep) memory (probes ++ final) course none ∧
      Trail criteria allowance start earlier last probes ∧
      Ends criteria allowance last left final (.ok halt) ∧
      criteria.cap = last.iteration + left ∧ halt.outcome = .ok outcome := by
  obtain ⟨criteria, course, notes, halt, hcriteria, hevents, hnotes, hdescent, houtcome⟩ :=
    exists_halt_of_unfolds_maximize h
  obtain ⟨earlier, last, hsearched⟩ := exists_searched_of_unfolds_observedDescent hdescent
  cases hsearched with
  | intro hpreview hmediated htrail hcap hends =>
      exact ⟨criteria, earlier, last, _, _, _, halt, _, _, _, notes, hcriteria, hevents, hnotes,
        hpreview, hmediated, htrail, hends, hcap, houtcome⟩

/-- **A maximisation that succeeds tells why its search has stopped**, at the last iterate of a
trail on which the test of convergence was not met before, and no target was reached. -/
theorem exists_trail_of_unfolds_maximize
    {events : List (Event (Consult Float n) Consult.Answer)} {outcome : Outcome n}
    (h : (maximize level settings allowance start).Unfolds events (some (.ok outcome))) :
    ∃ criteria earlier last probes final memory preview course notes,
      settings.criteria n = .ok criteria ∧
      events = preview ++ course ++ notes ∧ Silent notes ∧ Previewed level start preview memory ∧
      Mediated (evaluate differenceStep) memory (probes ++ final) course none ∧
      Trail criteria allowance start earlier last probes ∧
      outcome.TellsWhy criteria allowance last final ∧
      (∀ t ∈ earlier, ¬t.Meets criteria) ∧
      ∀ t ∈ earlier ++ [last], ¬t.bestCost ≤ -(1.0 / 0.0) := by
  obtain ⟨criteria, earlier, last, probes, final, left, halt, memory, preview, course, notes,
    hcriteria, hevents, hnotes, hpreview, hmediated, htrail, hends, hcap, houtcome⟩ :=
    exists_ends_of_unfolds_maximize h
  exact ⟨criteria, earlier, last, probes, final, memory, preview, course, notes, hcriteria, hevents,
    hnotes, hpreview, hmediated, htrail, Outcome.tellsWhy_of_ends hcap hends houtcome,
    fun t ht => Iterate.not_meets_of_unconverged (htrail.unconverged t ht),
    untargeted_of_trail hmediated htrail⟩

end MarkovLogic
