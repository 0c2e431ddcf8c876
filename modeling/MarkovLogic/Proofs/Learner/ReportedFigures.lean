/-
**What the reported figures are figures of.**

A run that succeeds reports a log-likelihood and, unless a line search has given up, a gradient.  On
a memoryless objective the log-likelihood is that of the learned weights, and at least that of the
start.  The gradient is another matter: it is the one at the last point, while the weights are the
best ones, and these are the same only if the last point has improved on all others.  Where costs
are too large for a change to show in them, a run converges at a point that does not count as
better, and reports its gradient beside weights that have another one.

Main results:

* `Learner.logLikelihood_of_learned` — **the log-likelihood is that of the learned weights**, and no
  worse than at the start;
* `Learner.gradient_of_last_point` — **the gradient is that of the last point**, which is no better
  than the learned weights;
* `Learner.gradient_of_other_weights` — it need not be that of the learned weights.
-/
import MarkovLogic.Proofs.Learner.Ending

set_option autoImplicit false

namespace MarkovLogic

/-! ### The log-likelihood -/

/-- **The log-likelihood is that of the learned weights, and no worse than at the start.**  If a run
over free weights on a memoryless objective succeeds, for whatever reason the search has stopped,
then the objective has the reported value at the learned weights, and at most this value at the
weights it started from. -/
theorem Learner.logLikelihood_of_learned {net : Network Float} (o : Objective Float)
    (options : LearnOptions) {p : Preparation net.formulaCount}
    (hp : prepare net o.mode options = .ok p) (hfree : p.partition.freeCount ≠ 0)
    (backend : Backend) (level : LogLevel) (allowance : Nat) (learner : Learner net.formulaCount)
    {after : Learner net.formulaCount} {learned : Learned net.formulaCount}
    (h : ((run net o.mode backend level allowance options learner).run o.respond ()).result =
      some (after, .ok learned)) :
    o.value learned.weights.toArray = .ok learned.diagnostics.logLikelihood ∧
      ∃ v, o.value p.weights.toArray = .ok v ∧ v ≤ learned.diagnostics.logLikelihood := by
  obtain ⟨front, body, back, inner, outcome, -, -, -, -, hheard, hinner, rfl⟩ :=
    exists_outcome_of_result hp hfree h
  obtain ⟨hestimate, v, hstart, hle⟩ := value_estimate_of_unfolds_maximize hinner hheard
  rw [p.partition.value_reducedObjective] at hestimate hstart
  exact ⟨hestimate, v, hstart, hle⟩

/-- A hill over the first of two weights, with its top at one. -/
def hill : Objective Float where
  value w := let x := w.toList.headD 0; .ok (x - 0.5 * (x * x))
  gradient w := .ok #[1 - w.toList.headD 0, 0]

/-- On the hill a run climbs from zero to the top. -/
theorem Learner.logLikelihood_of_learned_hill :
    ∃ p after learned, prepare halfFixed .hard .standard = .ok p ∧ p.partition.freeCount ≠ 0 ∧
      ((run halfFixed .hard .available .off 5 .standard (.fresh 2)).run hill.respond ()).result =
        some (after, .ok learned) ∧ 0 < learned.diagnostics.logLikelihood ∧
      hill.value learned.weights.toArray = .ok learned.diagnostics.logLikelihood ∧
      ∃ v, hill.value p.weights.toArray = .ok v ∧ v ≤ learned.diagnostics.logLikelihood := by
  have hlearned : (((run halfFixed .hard .available .off 5 .standard (.fresh 2)).run
      hill.respond ()).result.any fun r =>
        r.2.toOption.any fun learned => 0 < learned.diagnostics.logLikelihood) = true := by
    decide +kernel
  have hprepared : ((prepare halfFixed .hard .standard).toOption.any fun p =>
      decide (p.partition.freeCount ≠ 0)) = true := by
    decide +kernel
  obtain ⟨p, hp, hfree⟩ := exists_ok_of_any hprepared
  obtain ⟨after, learned, hresult, hpositive⟩ := exists_learned_of_any hlearned
  exact ⟨p, after, learned, hp, of_decide_eq_true hfree, hresult, of_decide_eq_true hpositive,
    Learner.logLikelihood_of_learned hill .standard hp (of_decide_eq_true hfree) .available .off 5
      (.fresh 2) hresult⟩

/-! ### The gradient -/

/-- The gradient of an outcome, if the objective has one of its own: at a point that is no better
than the estimate, with the sign that the objective gives it, and the answer to the last question.
-/
theorem gradient_of_unfolds_maximize {n : Nat} {level : LogLevel} {settings : Settings}
    {allowance : Nat} {start : Vector Float n} {o : Objective Float}
    (hanalytic : ∀ x : Vector Float n, o.gradient x.toArray ≠ .error .gradientNotImplemented)
    {events : List (Event (Consult Float n) Consult.Answer)} {outcome : Outcome n}
    (h : (maximize level settings allowance start).Unfolds events (some (.ok outcome)))
    (hadmitted : Admitted o.Answers events) {g : Array Float} (hg : outcome.gradient = some g) :
    ∃ x v, o.gradient x.toArray = .ok g ∧ o.value x.toArray = .ok v ∧ v ≤ outcome.value ∧
      (x = outcome.estimate ∨ 0 < outcome.iterations) ∧
      ∃ before notes, Silent notes ∧
        events = before ++ .answered (.gradient x) (o.gradient x.toArray) :: notes := by
  obtain ⟨first, s, -, hsound, hestimate, hvalue, hgradient⟩ :=
    exists_sound_of_unfolds_maximize h hadmitted
  obtain ⟨rfl, hiterations, front, block, notes, memory, memory', rfl, hnotes, hblock⟩ :=
    hgradient g hg
  obtain ⟨rfl, htold⟩ := Objective.unfolds_gradientAt (hanalytic s.point) hblock hadmitted.enclosed
  obtain ⟨hcost, hcostFinite⟩ := Objective.value_of_tells hsound.cost
  obtain ⟨-, hbestFinite⟩ := Objective.value_of_tells hsound.best.1
  refine ⟨s.point, -s.cost, ?_, hcost, ?_, ?_, front, notes, hnotes, by simp⟩
  · exact Objective.gradient_of_tells (hanalytic s.point) hsound.gradient
  · rw [hvalue]
    rcases hsound.last with ⟨-, hsame⟩ | ⟨-, hworse⟩
    · rw [hsame]
      exact Double.le_refl (by rw [Double.isFinite_neg, hbestFinite])
    · exact Double.neg_le_neg_of_not_lt hcostFinite hbestFinite hworse
  · rw [hestimate, hiterations]
    exact hsound.last.imp And.left And.left

/-- **The gradient is that of the last point.**  If a run over free weights succeeds on a memoryless
objective with a gradient of its own, and reports a gradient, then that consists of the free entries
of the objective's at the last point the objective was asked about, and the reported norm is its
norm.  This point is the vector of learned weights, or else some iterations have led to it, and the
objective is no larger there than at the learned weights. -/
theorem Learner.gradient_of_last_point {net : Network Float} (o : Objective Float)
    (hanalytic : ∀ w : Vector Float net.formulaCount,
      o.gradient w.toArray ≠ .error .gradientNotImplemented)
    (options : LearnOptions) {p : Preparation net.formulaCount}
    (hp : prepare net o.mode options = .ok p) (hfree : p.partition.freeCount ≠ 0)
    (backend : Backend) (level : LogLevel) (allowance : Nat) (learner : Learner net.formulaCount)
    {after : Learner net.formulaCount} {learned : Learned net.formulaCount}
    (h : ((run net o.mode backend level allowance options learner).run o.respond ()).result =
      some (after, .ok learned))
    {g : Array Float} (hg : learned.diagnostics.gradient = some g) :
    ∃ w v, (∃ before notes, Silent notes ∧
        ((run net o.mode backend level allowance options learner).run o.respond ()).transcript =
          before ++ .answered (.gradient w) (o.gradient w.toArray) :: notes) ∧
      p.partition.reduceGradient (o.gradient w.toArray) = .ok g ∧
      learned.diagnostics.gradientNorm = some (Arrow.dot g.toVector g.toVector).sqrt ∧
      (w = learned.weights ∨ 0 < learned.diagnostics.iterations) ∧
      o.value w.toArray = .ok v ∧ v ≤ learned.diagnostics.logLikelihood := by
  obtain ⟨front, body, back, inner, outcome, hback, hevents, hrelayed, hbody, hheard, hinner,
    rfl⟩ := exists_outcome_of_result hp hfree h
  obtain ⟨x, v, hgradient, hvalue, hle, hpoint, before, notes, hnotes, rfl⟩ :=
    gradient_of_unfolds_maximize
      (fun x => p.partition.gradient_reducedObjective_ne (hanalytic (p.partition.expand x)))
      hinner hheard hg
  rw [p.partition.value_reducedObjective] at hvalue
  refine ⟨p.partition.expand x, v, ?_,
    (p.partition.gradient_reducedObjective_eq_ok_iff o x g).1 hgradient, ?_,
    hpoint.imp_left (congrArg p.partition.expand), hvalue, hle⟩
  · -- the last question of the maximisation is the last one of the run
    obtain ⟨before', after', -, hafter, rfl⟩ := exists_append_of_relayed hrelayed
    cases hafter with
    | cons hlast hrest =>
        obtain ⟨a, rfl, -⟩ := hlast.exists_answer
        have hanswer : a = o.gradient (p.partition.expand x).toArray :=
          (admitted_append.1 hbody).2 _ _ List.mem_cons_self
        rw [hevents, hanswer]
        exact ⟨front ++ before', _, (hnotes.relayed hrest).append hback, by
          simp [Partition.liftQuestion]⟩
  · exact congrArg (Option.map _) hg

/-- A hill whose height is lost in the depth from which it rises. -/
def sunken : Objective Float where
  value w := let x := w.toList.headD 0; .ok (-1e20 + (x - 0.5 * (x * x)))
  gradient w := .ok #[1 - w.toList.headD 0]

/-- The run on the sunken hill climbs to the top, where the gradient vanishes, and returns the foot,
where it does not. -/
theorem sunken_climbed :
    (((Learner.run oneFree .hard .available .off 5 .standard (.fresh 1)).run
      sunken.respond ()).result.any fun r => r.2.toOption.any fun learned =>
        learned.weights.toArray = #[0] ∧ learned.diagnostics.gradient = some #[0] ∧
          learned.diagnostics.verdict = .converged) = true := by
  decide +kernel

theorem sunken_prepared :
    ((prepare oneFree .hard .standard).toOption.any fun p => decide (p.partition.freeCount ≠ 0 ∧
      (p.partition.reduceGradient (sunken.gradient #[0])).toOption = some #[1])) = true := by
  decide +kernel

/-- On the sunken hill the last point, at the top, is no better than the foot. -/
theorem Learner.gradient_of_last_point_sunken :
    ∃ p after learned, prepare oneFree .hard .standard = .ok p ∧ p.partition.freeCount ≠ 0 ∧
      ((run oneFree .hard .available .off 5 .standard (.fresh 1)).run sunken.respond ()).result =
        some (after, .ok learned) ∧ learned.diagnostics.gradient = some #[0] ∧
      ∃ w v, (∃ before notes, Silent notes ∧
          ((run oneFree .hard .available .off 5 .standard (.fresh 1)).run
            sunken.respond ()).transcript =
              before ++ .answered (.gradient w) (sunken.gradient w.toArray) :: notes) ∧
        p.partition.reduceGradient (sunken.gradient w.toArray) = .ok #[0] ∧
        learned.diagnostics.gradientNorm =
          some (Arrow.dot (#[(0 : Float)]).toVector (#[(0 : Float)]).toVector).sqrt ∧
        (w = learned.weights ∨ 0 < learned.diagnostics.iterations) ∧
        sunken.value w.toArray = .ok v ∧ v ≤ learned.diagnostics.logLikelihood := by
  obtain ⟨p, hp, hprepared⟩ := exists_ok_of_any sunken_prepared
  obtain ⟨after, learned, hresult, hlearned⟩ := exists_learned_of_any sunken_climbed
  obtain ⟨hfree, -⟩ := of_decide_eq_true hprepared
  obtain ⟨-, hgradient, -⟩ := of_decide_eq_true hlearned
  exact ⟨p, after, learned, hp, hfree, hresult, hgradient,
    Learner.gradient_of_last_point sunken (fun _ h => by cases h) .standard hp hfree .available .off
      5 (.fresh 1) hresult hgradient⟩

/-- **The gradient need not be that of the learned weights.**  A run may converge and report the
gradient zero beside weights at which the reduced gradient of the objective is one. -/
theorem Learner.gradient_of_other_weights :
    ∃ p after learned, prepare oneFree .hard .standard = .ok p ∧ p.partition.freeCount ≠ 0 ∧
      ((run oneFree .hard .available .off 5 .standard (.fresh 1)).run sunken.respond ()).result =
        some (after, .ok learned) ∧
      learned.diagnostics.verdict = .converged ∧ learned.diagnostics.gradient = some #[0] ∧
      p.partition.reduceGradient (sunken.gradient learned.weights.toArray) = .ok #[1] := by
  obtain ⟨p, hp, hprepared⟩ := exists_ok_of_any sunken_prepared
  obtain ⟨after, learned, hresult, hlearned⟩ := exists_learned_of_any sunken_climbed
  obtain ⟨hfree, hreduced⟩ := of_decide_eq_true hprepared
  obtain ⟨hweights, hgradient, hverdict⟩ := of_decide_eq_true hlearned
  refine ⟨p, after, learned, hp, hfree, hresult, hverdict, hgradient, ?_⟩
  rw [hweights]
  exact toOption_eq_some_iff.1 hreduced

end MarkovLogic
