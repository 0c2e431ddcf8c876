/-
**Finite figures.**

Over free weights a run reports nothing but finite figures: the maximisation refuses an estimate or
a value that is not finite, whatever the objective has answered on the way.  A run without free
weights makes no maximisation.  It asks for one value, at the weights that are all fixed, and
reports what it is told without looking at it, as converged.

Main results:

* `Learner.finite_unless_nothing_free` — **the figures of a run that succeeds**: finite if some
  weight is free, and the only answer of the objective if none is;
* `Learner.undefined_reported` — a run that reports a log-likelihood that is not a number.
-/
import MarkovLogic.Proofs.Learner.ReportedFigures
import MarkovLogic.Proofs.Solver.Outcomes

set_option autoImplicit false

namespace MarkovLogic

variable {n : Nat} {σ : Type}

/-! ### The figures -/

/-- A successful maximisation over free weights learns finite free weights and reports their finite
value. -/
theorem isFinite_of_unfolds_maximize {level : LogLevel} {settings : Settings} {allowance : Nat}
    {start : Vector Float n} {events : List (Event (Consult Float n) Consult.Answer)}
    {outcome : Outcome n}
    (h : (maximize level settings allowance start).Unfolds events (some (.ok outcome))) :
    outcome.value.isFinite = true ∧ ∀ x ∈ outcome.estimate.toList, x.isFinite = true := by
  obtain ⟨_, _, _, halt, -, -, -, -, houtcome⟩ := exists_halt_of_unfolds_maximize h
  exact isFinite_of_outcome houtcome

/-- **The figures of a run that succeeds**, whoever answers.  Every free weight is finite.  If there
are free weights, the log-likelihood is finite too.  If there are none, the run has put a single
question, for the value of the fixed weights; the answer, whatever number it is, is the
log-likelihood, and the verdict is that the run has converged. -/
theorem Learner.finite_unless_nothing_free {net : Network Float} {mode : EvidenceMode}
    {backend : Backend} {level : LogLevel} {allowance : Nat} {options : LearnOptions}
    {learner after : Learner net.formulaCount} {learned : Learned net.formulaCount}
    (respond : σ → (q : Consult Float net.formulaCount) → q.Answer × σ) (s : σ)
    (h : ((run net mode backend level allowance options learner).run respond s).result =
      some (after, .ok learned)) :
    ∃ p, prepare net mode options = .ok p ∧
      (∀ x ∈ (p.partition.reduce learned.weights).toList, x.isFinite = true) ∧
      (p.partition.freeCount ≠ 0 → learned.diagnostics.logLikelihood.isFinite = true) ∧
      (p.partition.freeCount = 0 → learned.diagnostics.verdict = .converged ∧
        ∃ front back v, Silent front ∧ Silent back ∧
          ((run net mode backend level allowance options learner).run respond s).transcript =
            front ++ .answered (.value .cost p.weights) (.ok v) :: back ∧
          learned.diagnostics.logLikelihood = v) := by
  obtain ⟨p, front, body, back, hp, hfront, hback, hevents, hcases⟩ :=
    exists_preparation_of_unfolds_run (Dialogue.unfolds_of_result_run h)
  refine ⟨p, hp, ?_⟩
  rcases hcases with ⟨hzero, v, rfl, rfl⟩ | ⟨hfree, inner, outcome, -, hinner, rfl⟩
  · refine ⟨fun x hx => ?_, fun hfree => absurd hzero hfree, fun _ => ?_⟩
    · -- a vector without entries
      have hempty : (p.partition.reduce p.weights).toList = [] := by
        apply List.eq_nil_of_length_eq_zero
        rw [Vector.length_toList, hzero]
      rw [hempty] at hx
      cases hx
    · exact ⟨rfl, front, back, v, hfront, hback, by rw [hevents]; simp, rfl⟩
  · obtain ⟨hvalue, hestimate⟩ := isFinite_of_unfolds_maximize hinner
    refine ⟨fun x hx => ?_, fun _ => hvalue, fun hzero => absurd hzero hfree⟩
    rw [Partition.reduce_expand] at hx
    exact hestimate x hx

/-- The run on two formulas, one of them free, reports a finite log-likelihood. -/
theorem Learner.finite_unless_nothing_free_halfFixed :
    ∃ after learned,
      ((run halfFixed .hard .available .off 5 .standard (.fresh 2)).run hill.respond ()).result =
        some (after, .ok learned) ∧
      ∃ p, prepare halfFixed .hard .standard = .ok p ∧ p.partition.freeCount ≠ 0 ∧
        learned.diagnostics.logLikelihood.isFinite = true := by
  have hlearned : (((run halfFixed .hard .available .off 5 .standard (.fresh 2)).run
      hill.respond ()).result.any fun r => r.2.toOption.any fun _ => true) = true := by
    decide +kernel
  have hprepared : ((prepare halfFixed .hard .standard).toOption.any fun p =>
      decide (p.partition.freeCount ≠ 0)) = true := by
    decide +kernel
  obtain ⟨after, learned, hresult, -⟩ := exists_learned_of_any hlearned
  obtain ⟨p, hp, hfree⟩ := exists_ok_of_any hprepared
  obtain ⟨p', hp', -, hfinite, -⟩ := Learner.finite_unless_nothing_free hill.respond () hresult
  obtain rfl : p = p' := Except.ok.inj (hp.symm.trans hp')
  exact ⟨after, learned, hresult, p, hp, of_decide_eq_true hfree,
    hfinite (of_decide_eq_true hfree)⟩

/-! ### Nothing free -/

/-- One formula, to be fixed. -/
def allFixed : Network Float where
  formulaCount := 1
  weight _ := .ok 0
  fixedFormulas := [0]
  groundings _ := .ok [.ok { truth := .ok true }]

/-- An objective that is nowhere a number. -/
def undefined : Objective Float where
  value _ := .ok (0.0 / 0.0)

/-- **A run may report a log-likelihood that is not a number, as converged**: nothing is free, and
the objective is undefined where all weights are fixed. -/
theorem Learner.undefined_reported :
    ∃ after learned,
      ((run allFixed .hard .available .off 5 .standard (.fresh 1)).run
        undefined.respond ()).result = some (after, .ok learned) ∧
      learned.diagnostics.logLikelihood.isFinite = false ∧
      learned.diagnostics.verdict.code = 0 := by
  have hlearned : (((run allFixed .hard .available .off 5 .standard (.fresh 1)).run
      undefined.respond ()).result.any fun r => r.2.toOption.any fun learned =>
        decide (learned.diagnostics.logLikelihood.isFinite = false ∧
          learned.diagnostics.verdict.code = 0)) = true := by
    decide +kernel
  obtain ⟨after, learned, hresult, hfigures⟩ := exists_learned_of_any hlearned
  exact ⟨after, learned, hresult, of_decide_eq_true hfigures⟩

end MarkovLogic
