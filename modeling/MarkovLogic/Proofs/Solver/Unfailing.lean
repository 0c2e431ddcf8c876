/-
**Objectives that never fail.**

An objective may be undefined or infinite where it pleases and still never fail.  If it has a value
and a gradient everywhere, of whatever numbers, then nothing that the solver meets away from the
start makes a maximisation fail: a cost that is not finite ends a line search, and a line search
that gives up ends the descent with a result; the gradient that the descent itself asks for was
found a moment before by the line search.  What can still fail is the check of the estimate, since
the best point may have entries that are not finite.  It is then no longer the start, and the value
there is larger.

Main definitions:

* `Objective.Unfailing` — a value and a gradient everywhere;
* `Objective.FiniteAt` — both are finite at a point.

Main results:

* `Objective.Unfailing.firstFailure?_eq_none` — no failure is ever remembered;
* `Objective.Unfailing.exists_of_unfolds_observedDescent` — **the descent has a result**;
* `Objective.Unfailing.exists_of_unfolds_maximize` — **a maximisation fails with its estimate or not
  at all**.
-/
import MarkovLogic.Proofs.Solver.Memoryless

set_option autoImplicit false

namespace MarkovLogic

open QuasiNewton

variable {n : Nat} {level : LogLevel} {settings : Settings} {criteria : Criteria} {allowance : Nat}
  {start : Vector Float n} {o : Objective Float}

/-- The objective has a value and a gradient at every point. -/
structure Objective.Unfailing (o : Objective Float) (n : Nat) : Prop where
  value : ∀ x : Vector Float n, ∃ v, o.value x.toArray = .ok v
  gradient : ∀ x : Vector Float n, ∃ g, o.gradient x.toArray = .ok g

/-- At the point value and gradient of the objective exist and are finite. -/
structure Objective.FiniteAt (o : Objective Float) (x : Vector Float n) (v : Float) : Prop where
  value : o.value x.toArray = .ok v
  finite : v.isFinite = true
  gradient : ∃ g, o.gradient x.toArray = .ok g ∧ ∃ g', checkGradient n g = .ok g'

/-- **At a finite value the check of the estimate decides**: the best point is the estimate if its
entries are finite, and otherwise the first that is not is the error. -/
theorem outcome_of_isFinite {halt : Halt n} (hvalue : (-halt.bestCost).isFinite = true) :
    ((∀ x ∈ halt.bestPoint.toList, x.isFinite = true) ∧ ∃ outcome, halt.outcome = .ok outcome ∧
        outcome.estimate = halt.bestPoint ∧ outcome.value = -halt.bestCost) ∨
      ∃ index entry, firstNonFinite? halt.bestPoint.toList = some (index, entry) ∧
        halt.outcome =
          .error (.invalidEstimate index entry "Parameter estimates must be finite.") := by
  have hchecked : Outcome.checkValue (-halt.bestCost) = .ok () := if_pos hvalue
  unfold Halt.outcome Outcome.make Outcome.checkEstimate
  rw [hchecked]
  dsimp only
  cases hentry : firstNonFinite? halt.bestPoint.toList with
  | none => exact .inl ⟨(firstNonFinite?_eq_none_iff _).1 hentry, _, rfl, rfl, rfl⟩
  | some found => exact .inr ⟨found.1, found.2, rfl, rfl⟩

namespace Objective

/-! ### What the solver is told -/

/-- At a point where the objective is finite, no evaluation of the cost fails. -/
theorem FiniteAt.not_tells_cost {v : Float} (h : o.FiniteAt start v)
    (error : OptimizationError Float) : ¬o.Tells (.cost start) (.error error) := by
  intro htells
  have hcost := tells_cost htells
  rw [h.value] at hcost
  change Except.error error = if v.isFinite then Except.ok (-v)
    else Except.error (OptimizationError.nonFiniteCost v) at hcost
  rw [if_pos h.finite] at hcost
  cases hcost

/-- Nor does one of the gradient. -/
theorem FiniteAt.not_tells_gradient {v : Float} (h : o.FiniteAt start v)
    (error : OptimizationError Float) : ¬o.Tells (.gradient start) (.error error) := by
  intro htells
  obtain ⟨g, hg, g', hg'⟩ := h.gradient
  have hgradient := tells_gradient (by simp [hg]) htells
  rw [hg] at hgradient
  change Except.error error = (checkGradient n g).map Arrow.neg at hgradient
  rw [hg'] at hgradient
  cases hgradient

/-- A preview of the start ends with an error of the cost alone, so there with none. -/
theorem FiniteAt.not_unfolds_previewStart {v : Float} (h : o.FiniteAt start v)
    {events : List (Event (Consult Float n) Consult.Answer)} (hadmitted : Admitted o.Answers events)
    {error : OptimizationError Float} {memory : FirstFailure Float} :
    ¬(previewStart start none).Unfolds events (some (.error error, memory)) := by
  intro hpreview
  obtain ⟨part, ⟨cost, after⟩, rest, hcost, hrest, rfl⟩ := Dialogue.unfolds_bind_some hpreview
  have htells : o.Tells (.cost start) cost :=
    ⟨none, after, part, hcost, (admitted_append.1 hadmitted).1⟩
  cases cost with
  | error error => exact h.not_tells_cost error htells
  | ok c =>
      obtain ⟨_, _, _, -, hlog, -⟩ := Dialogue.unfolds_bind_some hrest
      obtain ⟨_, _, -, hdone, -⟩ := Dialogue.unfolds_log_bind hlog
      cases (Dialogue.unfolds_done hdone).2

namespace Unfailing

variable (h : o.Unfailing n)

include h

theorem gradient_ne (x : Vector Float n) :
    o.gradient x.toArray ≠ .error .gradientNotImplemented := by
  obtain ⟨g, hg⟩ := h.gradient x
  simp [hg]

/-- **The gradient at a point is told twice alike.** -/
theorem not_tells_both {x : Vector Float n} {g : Vector Float n} {error : OptimizationError Float}
    (hfound : o.Tells (.gradient x) (.ok g)) : ¬o.Tells (.gradient x) (.error error) := by
  intro hrefused
  have hsame := (tells_gradient (h.gradient_ne x) hfound).trans
    (tells_gradient (h.gradient_ne x) hrefused).symm
  cases hsame

/-- Where cost and gradient were probed, the objective is finite. -/
theorem finiteAt_of_probed {x : Vector Float n} {c : Float} (hprobed : Probed o.Tells x c) :
    o.FiniteAt x (-c) := by
  obtain ⟨hcost, g, hgradient⟩ := hprobed
  obtain ⟨hvalue, hfinite⟩ := value_of_tells hcost
  refine ⟨hvalue, by rw [Double.isFinite_neg, hfinite], ?_⟩
  obtain ⟨full, hfull, htold⟩ := bind_eq_ok_iff.1 (tells_gradient (h.gradient_ne x) hgradient).symm
  obtain ⟨checked, hchecked, -⟩ := map_eq_ok_iff.1 htold
  exact ⟨full, hfull, checked, hchecked⟩

/-- **No failure is ever remembered.** -/
theorem firstFailure?_eq_none {events : List (Event (Consult Float n) Consult.Answer)}
    (hadmitted : Admitted o.Answers events) : firstFailure? events = none := by
  refine List.findSome?_eq_none_iff.2 fun e he => ?_
  cases e with
  | noted record => rfl
  | answered q a =>
      obtain rfl : a = o.answer q := hadmitted q a he
      cases q with
      | value purpose x =>
          obtain ⟨v, hv⟩ := h.value x
          simp [Event.failure?, answer, hv, Consult.failure?]
      | gradient x =>
          obtain ⟨g, hg⟩ := h.gradient x
          simp [Event.failure?, answer, hg, Consult.failure?]

/-! ### The descent -/

/-- **The descent has a result** if the objective is finite at the start: a best point with the cost
told of it, which is the start or better. -/
theorem exists_of_unfolds_observedDescent {v : Float} (hstart : o.FiniteAt start v)
    {events : List (Event (Consult Float n) Consult.Answer)}
    {ended : Except (OptimizationError Float) (Halt n)} {memory : FirstFailure Float}
    (hcourse : (observedDescent level criteria allowance start).Unfolds events
      (some (ended, memory)))
    (hadmitted : Admitted o.Answers events) :
    ∃ halt, ended = .ok halt ∧ o.FiniteAt halt.bestPoint (-halt.bestCost) ∧
      (halt.bestPoint = start ∨ v < -halt.bestCost) := by
  have hfinite : ∀ (x : Vector Float n) c, o.Tells (.cost x) (.ok c) → c.isFinite = true :=
    fun x c hc => (value_of_tells hc).2
  rcases unfolds_observedDescent hcourse with ⟨error, -, hpreview⟩ |
    ⟨preview, rest, before, rfl, -, hrest⟩
  · exact absurd hpreview (hstart.not_unfolds_previewStart hadmitted)
  · obtain ⟨probes, hprobes, hmediated⟩ := Dialogue.unfolds_mediate hrest
    have htold := hmediated.admitted ensures_evaluate (admitted_append.1 hadmitted).2
    cases ended with
    | error error =>
        rcases exists_refused_of_unfolds_descend hfinite htold hprobes with hcost | hgradient |
          ⟨x, g, hfound, hrefused⟩
        · exact absurd hcost (hstart.not_tells_cost error)
        · exact absurd hgradient (hstart.not_tells_gradient error)
        · exact absurd hrefused (h.not_tells_both hfound)
    | ok halt =>
        obtain ⟨first, s, hfirst, hsound, hpoint, hcost, -⟩ :=
          exists_sound_of_unfolds_descend hfinite htold hprobes
        have hvalue : v = -first :=
          Except.ok.inj (hstart.value.symm.trans (value_of_tells hfirst).1)
        refine ⟨halt, rfl, ?_, ?_⟩
        · rw [hpoint, hcost]
          exact h.finiteAt_of_probed hsound.best
        · rw [hpoint, hcost, hvalue]
          exact hsound.improved.imp And.left Double.neg_lt_neg

/-! ### The maximisation -/

/-- **A maximisation fails with its estimate or not at all**, if start and tolerances are accepted
and the objective never fails and is finite at the start.  Its descent has a result, behind no
failure, and the objective is finite at the best point.  If that has finite entries, it is the
estimate; otherwise its first entry that is not finite is the error, and the objective is larger
there than at the start. -/
theorem exists_of_unfolds_maximize {v : Float} (hpoint : checkStart start.toArray = .ok ())
    (hcriteria : settings.criteria n = .ok criteria) (hstart : o.FiniteAt start v)
    {events : List (Event (Consult Float n) Consult.Answer)}
    {r : Except (OptimizationError Float) (Outcome n)}
    (hcourse : (maximize level settings allowance start).Unfolds events (some r))
    (hadmitted : Admitted o.Answers events) :
    ∃ course notes halt, events = course ++ notes ∧ Silent notes ∧
      (observedDescent level criteria allowance start).Unfolds course (some (.ok halt, none)) ∧
      o.FiniteAt halt.bestPoint (-halt.bestCost) ∧
      (((∀ x ∈ halt.bestPoint.toList, x.isFinite = true) ∧ ∃ outcome, r = .ok outcome ∧
          outcome.estimate = halt.bestPoint ∧ outcome.value = -halt.bestCost) ∨
        ∃ index entry, firstNonFinite? halt.bestPoint.toList = some (index, entry) ∧
          r = .error (.invalidEstimate index entry "Parameter estimates must be finite.") ∧
          v < -halt.bestCost) := by
  obtain ⟨course, ended, notes, hdescent, hconclude, rfl⟩ :=
    exists_descent_of_unfolds_maximize hpoint hcriteria hcourse
  obtain ⟨hsilent, hreport⟩ := unfolds_conclude hconclude
  rw [h.firstFailure?_eq_none hadmitted] at hdescent hreport
  obtain ⟨halt, rfl, hbest, himproved⟩ :=
    h.exists_of_unfolds_observedDescent hstart hdescent (admitted_append.1 hadmitted).1
  have hr : r = halt.outcome := Option.some.inj hreport
  refine ⟨course, notes, halt, rfl, hsilent, hdescent, hbest, ?_⟩
  rw [hr]
  rcases outcome_of_isFinite hbest.finite with hfinite | ⟨index, entry, hentry, hrefused⟩
  · exact .inl hfinite
  · refine .inr ⟨index, entry, hentry, hrefused, himproved.resolve_left fun hsame => ?_⟩
    -- the start has finite entries, so it is not the best point
    have hsame' : start.toArray.toList = halt.bestPoint.toList :=
      congrArg Vector.toList hsame.symm
    rw [checkStart, hsame', hentry] at hpoint
    cases hpoint

end Unfailing

end Objective

end MarkovLogic
