/-
**Maximising a function of the point.**

If the objective's answers depend on the point alone, then so does what the solver is told of cost
and gradient: the cost is the value with the other sign, and an analytic gradient comes with the
other sign and only if it is finite.  A maximisation that succeeds therefore ends at a sound iterate
of this objective; its estimate is the best point, its value the objective's there, and its gradient
the one at the last point, for which the objective was asked last.

Main definitions:

* `Objective.Answers` — an answer that the objective gives;
* `Objective.Tells` — what an evaluation on such answers may tell the solver.

Main results:

* `Objective.value_of_tells`, `Objective.tells_gradient` — what the solver is told;
* `exists_halt_of_unfolds_maximize` — **the parts of a maximisation that succeeds**;
* `exists_sound_of_unfolds_maximize` — **its end**, a sound iterate of the objective;
* `value_estimate_of_unfolds_maximize` — its value is the one of its estimate, and at least that of
  the start.
-/
import MarkovLogic.Likelihood.Objective
import MarkovLogic.Proofs.Dialogue.Mediation
import MarkovLogic.Proofs.Solver.BestPoint
import MarkovLogic.Proofs.Solver.Report
import MarkovLogic.Proofs.Success

set_option autoImplicit false

namespace MarkovLogic

open QuasiNewton

variable {n : Nat} {σ : Type} {level : LogLevel} {settings : Settings} {criteria : Criteria}
  {allowance : Nat} {start : Vector Float n}

/-! ### Checks -/

/-- A gradient that is accepted is accepted as it is. -/
theorem toArray_of_checkGradient_eq_ok {g : Array Float} {v : Vector Float n}
    (h : checkGradient n g = .ok v) : v.toArray = g := by
  unfold checkGradient at h
  split at h
  · split at h
    · cases h
    · cases h
      rfl
  · cases h

/-- Every entry with the other sign twice is the vector itself. -/
theorem Arrow.neg_neg (v : Vector Float n) : Arrow.neg (Arrow.neg v) = v := by
  simp [Arrow.neg, Vector.map_map, Function.comp_def]

/-! ### What a solver is told -/

namespace Objective

variable (o : Objective Float)

/-- The answer is the objective's. -/
def Answers (q : Consult Float n) (a : q.Answer) : Prop := a = o.answer q

/-- The answer to the probe may come of the objective's answers. -/
def Tells (q : Probe Float n) (a : q.Answer) : Prop :=
  ∃ memory memory' events, (evaluate differenceStep memory q).Unfolds events (some (a, memory')) ∧
    Admitted o.Answers events

variable {o}

/-- A memoryless objective gives its own answers. -/
theorem admitted_run_respond {α : Type} (d : Consultation Float n α) :
    Admitted o.Answers (d.run o.respond ()).transcript :=
  admitted_run (fun _ _ => rfl) d ()

/-- A course with the objective's answers is the one that it takes on the objective. -/
theorem run_respond_eq {α : Type} {d : Consultation Float n α}
    {events : List (Event (Consult Float n) Consult.Answer)} {result : Option α}
    (h : d.Unfolds events result) (hadmitted : Admitted o.Answers events) :
    d.run o.respond () = ⟨result, (), events⟩ :=
  run_eq_of_unfolds h hadmitted

theorem ensures_evaluate (memory : FirstFailure Float) (q : Probe Float n) :
    Dialogue.Ensures o.Answers (evaluate differenceStep memory q) fun r => o.Tells q r.1 := by
  intro events r h hadmitted
  exact ⟨memory, r.2, events, h, hadmitted⟩

/-- The cost that is told is the value with the other sign, if that is finite. -/
theorem tells_cost {x : Vector Float n} {a : Except (OptimizationError Float) Float}
    (h : o.Tells (.cost x) a) :
    a = o.value x.toArray >>= fun v =>
      if v.isFinite then .ok (-v) else .error (.nonFiniteCost v) := by
  obtain ⟨memory, memory', events, hcourse, hadmitted⟩ := h
  cases hcourse with
  | ask answer rest =>
      obtain ⟨hanswer, -⟩ := admitted_cons_answered.1 hadmitted
      have hvalue : o.value x.toArray = answer := hanswer.symm
      rw [hvalue]
      cases answer with
      | error error =>
          obtain ⟨-, hr⟩ := Dialogue.unfolds_done rest
          cases hr
          rfl
      | ok v =>
          obtain ⟨-, hr⟩ := Dialogue.unfolds_done rest
          cases hr
          rfl

/-- **A cost that is told is the value with the other sign**, and finite. -/
theorem value_of_tells {x : Vector Float n} {c : Float} (h : o.Tells (.cost x) (.ok c)) :
    o.value x.toArray = .ok (-c) ∧ c.isFinite = true := by
  obtain ⟨v, hvalue, hcost⟩ := bind_eq_ok_iff.1 (tells_cost h).symm
  split at hcost
  · rename_i hfinite
    cases hcost
    exact ⟨by rw [hvalue, Double.neg_neg], by rw [Double.isFinite_neg, hfinite]⟩
  · cases hcost

/-- **An analytic gradient is told with the other sign**, if it is finite and has an entry for each
variable; it takes the objective one answer. -/
theorem unfolds_gradientAt {x : Vector Float n}
    (hanalytic : o.gradient x.toArray ≠ .error .gradientNotImplemented)
    {memory memory' : FirstFailure Float} {events : List (Event (Consult Float n) Consult.Answer)}
    {a : Except (OptimizationError Float) (Vector Float n)}
    (h : (gradientAt differenceStep x memory).Unfolds events (some (a, memory')))
    (hadmitted : Admitted o.Answers events) :
    events = [.answered (.gradient x) (o.gradient x.toArray)] ∧
      a = o.gradient x.toArray >>= fun g => (checkGradient n g).map Arrow.neg := by
  cases h with
  | ask answer rest =>
      obtain ⟨hanswer, -⟩ := admitted_cons_answered.1 hadmitted
      have hgradient : o.gradient x.toArray = answer := hanswer.symm
      rw [hgradient] at hanalytic ⊢
      dsimp only at rest
      split at rest
      · obtain ⟨rfl, hr⟩ := Dialogue.unfolds_done rest
        cases hr
        exact ⟨rfl, rfl⟩
      · exact absurd rfl hanalytic
      · obtain ⟨rfl, hr⟩ := Dialogue.unfolds_done rest
        cases hr
        exact ⟨rfl, rfl⟩

theorem tells_gradient {x : Vector Float n}
    (hanalytic : o.gradient x.toArray ≠ .error .gradientNotImplemented)
    {a : Except (OptimizationError Float) (Vector Float n)} (h : o.Tells (.gradient x) a) :
    a = o.gradient x.toArray >>= fun g => (checkGradient n g).map Arrow.neg := by
  obtain ⟨memory, memory', events, hcourse, hadmitted⟩ := h
  exact (unfolds_gradientAt hanalytic hcourse hadmitted).2

/-- **A gradient that is told is the objective's with the other sign.** -/
theorem gradient_of_tells {x : Vector Float n}
    (hanalytic : o.gradient x.toArray ≠ .error .gradientNotImplemented) {g : Vector Float n}
    (h : o.Tells (.gradient x) (.ok g)) : o.gradient x.toArray = .ok (Arrow.neg g).toArray := by
  obtain ⟨full, hfull, htold⟩ := bind_eq_ok_iff.1 (tells_gradient hanalytic h).symm
  obtain ⟨v, hchecked, rfl⟩ := map_eq_ok_iff.1 htold
  rw [Arrow.neg_neg, toArray_of_checkGradient_eq_ok hchecked, hfull]

end Objective

/-! ### The descent of a maximisation -/

/-- A descent is observed behind what precedes it, unless a preview is its end. -/
theorem unfolds_observedDescent {events : List (Event (Consult Float n) Consult.Answer)}
    {halt : Except (OptimizationError Float) (Halt n)} {memory : FirstFailure Float}
    (h : (observedDescent level criteria allowance start).Unfolds events (some (halt, memory))) :
    (∃ error, halt = .error error ∧
        (previewStart start none).Unfolds events (some (.error error, memory))) ∨
      ∃ preview rest before, events = preview ++ rest ∧ Previewed level start preview before ∧
        ((descend criteria allowance start).mediate (evaluate differenceStep) before).Unfolds rest
          (some (halt, memory)) := by
  unfold observedDescent at h
  split at h
  · rename_i htalkative
    obtain ⟨preview, ⟨r, before⟩, rest, hpreview, hrest, rfl⟩ := Dialogue.unfolds_bind_some h
    cases r with
    | error error =>
        obtain ⟨rfl, hr⟩ := Dialogue.unfolds_done hrest
        cases hr
        exact .inl ⟨error, rfl, by simpa using hpreview⟩
    | ok _ => exact .inr ⟨preview, rest, before, rfl, .preview htalkative hpreview, hrest⟩
  · exact .inr ⟨[], events, none, rfl, .nothing ‹_›, h⟩

/-- A report of success comes of a descent with a result and without a failure behind it. -/
theorem exists_of_reported_eq_ok {halt : Except (OptimizationError Float) (Halt n)}
    {memory : FirstFailure Float} {outcome : Outcome n}
    (h : reported (halt, memory) = .ok outcome) :
    ∃ halt', halt = .ok halt' ∧ memory = none ∧ halt'.outcome = .ok outcome := by
  cases halt with
  | error error => cases h
  | ok halt =>
      cases memory with
      | some error => cases h
      | none => exact ⟨halt, rfl, rfl, h⟩

/-- An outcome hands on what the descent has handed over. -/
theorem outcome_eq_ok {halt : Halt n} {outcome : Outcome n} (h : halt.outcome = .ok outcome) :
    outcome = ⟨halt.bestPoint, -halt.bestCost, halt.termination.verdict, halt.termination.status,
      halt.iterations, halt.tally, halt.gradient.map fun g => (Arrow.neg g).toArray⟩ := by
  unfold Halt.outcome Outcome.make at h
  obtain ⟨estimate, hestimate, h⟩ := bind_eq_ok_iff.1 h
  obtain ⟨-, -, h⟩ := bind_eq_ok_iff.1 h
  have hsame : estimate = halt.bestPoint := by
    unfold Outcome.checkEstimate at hestimate
    dsimp only at hestimate
    split at hestimate
    · cases hestimate
    · exact (Except.ok.inj hestimate).symm
  rw [← hsame]
  exact (Except.ok.inj h).symm

/-- **The parts of a maximisation that succeeds**: a descent with a result and without a failure,
and perhaps records.  The outcome is that of the descent's end. -/
theorem exists_halt_of_unfolds_maximize
    {events : List (Event (Consult Float n) Consult.Answer)} {outcome : Outcome n}
    (h : (maximize level settings allowance start).Unfolds events (some (.ok outcome))) :
    ∃ criteria course notes halt, settings.criteria n = .ok criteria ∧ events = course ++ notes ∧
      Silent notes ∧
      (observedDescent level criteria allowance start).Unfolds course (some (.ok halt, none)) ∧
      halt.outcome = .ok outcome := by
  by_cases hbuilt : ∃ criteria, checkStart start.toArray = .ok () ∧
      settings.criteria n = .ok criteria
  · obtain ⟨criteria, hstart, hcriteria⟩ := hbuilt
    obtain ⟨course, ended, notes, hdescent, hconclude, rfl⟩ :=
      exists_descent_of_unfolds_maximize hstart hcriteria h
    obtain ⟨hsilent, hreport⟩ := unfolds_conclude hconclude
    obtain ⟨halt, rfl, hmemory, houtcome⟩ :=
      exists_of_reported_eq_ok (Option.some.inj hreport).symm
    rw [hmemory] at hdescent
    exact ⟨criteria, course, notes, halt, hcriteria, rfl, hsilent, hdescent, houtcome⟩
  · -- a refused start or tolerance is no success
    obtain ⟨error, hdone⟩ := maximize_of_refused level allowance
      fun criteria hstart hcriteria => hbuilt ⟨criteria, hstart, hcriteria⟩
    rw [hdone] at h
    cases (Dialogue.unfolds_done h).2

/-- **The end of a maximisation that succeeds**, if the objective is memoryless: a sound iterate,
whose best point and value are the outcome's.  A gradient of the outcome is that of the last point,
and the block of probing it stands at the end of the transcript. -/
theorem exists_sound_of_unfolds_maximize {o : Objective Float}
    {events : List (Event (Consult Float n) Consult.Answer)} {outcome : Outcome n}
    (h : (maximize level settings allowance start).Unfolds events (some (.ok outcome)))
    (hadmitted : Admitted o.Answers events) :
    ∃ (first : Float) (s : Iterate n), o.Tells (.cost start) (.ok first) ∧
      s.Sound o.Tells start first ∧ outcome.estimate = s.bestPoint ∧ outcome.value = -s.bestCost ∧
      ∀ g, outcome.gradient = some g →
        g = (Arrow.neg s.gradient).toArray ∧ outcome.iterations = s.iteration ∧
        ∃ front block notes memory memory', events = front ++ block ++ notes ∧ Silent notes ∧
          (gradientAt differenceStep s.point memory).Unfolds block
            (some (.ok s.gradient, memory')) := by
  obtain ⟨_, course, notes, halt, -, rfl, hsilent, hdescent, houtcome⟩ :=
    exists_halt_of_unfolds_maximize h
  rcases unfolds_observedDescent hdescent with ⟨_, hr, -⟩ | ⟨preview, rest, before, rfl, -, hrest⟩
  · cases hr
  · obtain ⟨probes, hprobes, hmediated⟩ := Dialogue.unfolds_mediate hrest
    have hblocks := hadmitted.enclosed
    obtain ⟨first, s, hfirst, hsound, hpoint, hcost, hgradient⟩ :=
      exists_sound_of_unfolds_descend (fun x c hc => (Objective.value_of_tells hc).2)
        (hmediated.admitted Objective.ensures_evaluate hblocks) hprobes
    obtain rfl := outcome_eq_ok houtcome
    refine ⟨first, s, hfirst, hsound, hpoint, congrArg Neg.neg hcost, fun g hg => ?_⟩
    obtain ⟨g', hg', rfl⟩ := Option.map_eq_some_iff.1 hg
    obtain ⟨rfl, hiterations, front, rfl⟩ := hgradient g' hg'
    obtain ⟨earlier, block, memory, hblock, rfl⟩ := hmediated.last
    exact ⟨rfl, hiterations, preview ++ earlier, block, notes, memory, _, by simp, hsilent, hblock⟩

/-- **The value of an outcome is the one of its estimate, and at least that of the start.** -/
theorem value_estimate_of_unfolds_maximize {o : Objective Float}
    {events : List (Event (Consult Float n) Consult.Answer)} {outcome : Outcome n}
    (h : (maximize level settings allowance start).Unfolds events (some (.ok outcome)))
    (hadmitted : Admitted o.Answers events) :
    o.value outcome.estimate.toArray = .ok outcome.value ∧
      ∃ v, o.value start.toArray = .ok v ∧ v ≤ outcome.value := by
  obtain ⟨first, s, hfirst, hsound, hestimate, hvalue, -⟩ :=
    exists_sound_of_unfolds_maximize h hadmitted
  obtain ⟨hstart, hfinite⟩ := Objective.value_of_tells hfirst
  rw [hestimate, hvalue]
  refine ⟨(Objective.value_of_tells hsound.best.1).1, -first, hstart, ?_⟩
  rcases hsound.improved with ⟨-, hcost⟩ | hlt
  · rw [hcost]
    exact Double.le_refl (by rw [Double.isFinite_neg, hfinite])
  · exact Double.le_of_lt (Double.neg_lt_neg hlt)

end MarkovLogic
