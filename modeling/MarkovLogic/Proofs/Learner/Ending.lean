/-
**What the end of a run comes from.**

A run over free weights that ends has made a maximisation over them.  If the objective is
memoryless, the maximisation heard the answers of the reduced objective, and these are what the
objective says about expanded vectors.

Main results:

* `Learner.exists_maximize_of_unfolds_run` — **a run that ends and its maximisation**;
* `Learner.exists_outcome_of_unfolds_run` — the same for a run that succeeds;
* `Learner.exists_preparation_of_unfolds_run` — a run that succeeds, with free weights or without;
* `admitted_of_relayed` — the answers that a maximisation over free weights hears;
* `Partition.gradient_reducedObjective_ne` — the reduced objective has a gradient of its own if the
  objective has;
* `Learner.exists_maximize_of_result`, `Learner.exists_outcome_of_result` — **the same for runs on a
  memoryless objective**.
-/
import MarkovLogic.Proofs.Dialogue.Ensures
import MarkovLogic.Proofs.Learner.Reduction
import MarkovLogic.Proofs.Solver.Memoryless

set_option autoImplicit false

namespace MarkovLogic

variable {n : Nat}

/-- **A run over free weights that ends** consists of a maximisation over them, whose questions are
put about expanded vectors, between records; the end of the maximisation decides what it leaves. -/
theorem Learner.exists_maximize_of_unfolds_run {net : Network Float} {mode : EvidenceMode}
    {level : LogLevel} {allowance : Nat} {options : LearnOptions}
    {learner : Learner net.formulaCount} {p : Preparation net.formulaCount}
    (hp : prepare net mode options = .ok p) (hfree : p.partition.freeCount ≠ 0)
    {events : List (Event (Consult Float net.formulaCount) Consult.Answer)}
    {result : RunResult net.formulaCount}
    (h : (run net mode .available level allowance options learner).Unfolds events (some result)) :
    ∃ front body back inner o, Silent front ∧ Silent back ∧ events = front ++ body ++ back ∧
      List.Forall₂ (Relayed p.partition.liftQuestion p.partition.liftAnswer) inner body ∧
      (maximize level p.options.settings allowance p.reduced).Unfolds inner (some o) ∧
      result = learner.conclude p (learnedFrom o) := by
  rcases unfolds_run h with ⟨_, hbackend, -, -⟩ | ⟨error, hp', -, -⟩ |
    ⟨p', hp', front, body, back, r, hfront, hback, hevents, hbody, hr⟩
  · cases hbackend
  · cases hp.symm.trans hp'
  · obtain rfl : p = p' := Except.ok.inj (hp.symm.trans hp')
    obtain ⟨inner, o, hinner, hrelayed, rfl⟩ := unfolds_optimize_of_freeCount_ne_zero hfree hbody
    cases o with
    | none => cases hr
    | some o =>
        exact ⟨front, body, back, inner, o, hfront, hback, hevents, hrelayed, hinner,
          Option.some.inj hr⟩

/-- **A run over free weights that succeeds** has made a maximisation that succeeds.  Weights and
figures are those of its outcome. -/
theorem Learner.exists_outcome_of_unfolds_run {net : Network Float} {mode : EvidenceMode}
    {backend : Backend} {level : LogLevel} {allowance : Nat} {options : LearnOptions}
    {learner after : Learner net.formulaCount} {p : Preparation net.formulaCount}
    (hp : prepare net mode options = .ok p) (hfree : p.partition.freeCount ≠ 0)
    {events : List (Event (Consult Float net.formulaCount) Consult.Answer)}
    {learned : Learned net.formulaCount}
    (h : (run net mode backend level allowance options learner).Unfolds events
      (some (after, .ok learned))) :
    ∃ front body back inner outcome, Silent front ∧ Silent back ∧ events = front ++ body ++ back ∧
      List.Forall₂ (Relayed p.partition.liftQuestion p.partition.liftAnswer) inner body ∧
      (maximize level p.options.settings allowance p.reduced).Unfolds inner
        (some (.ok outcome)) ∧
      learned = ⟨p.partition.expand outcome.estimate, .ofOutcome outcome⟩ := by
  cases backend with
  | unavailable => cases (Dialogue.unfolds_done h).2
  | available =>
      obtain ⟨front, body, back, inner, o, hfront, hback, hevents, hrelayed, hinner, hr⟩ :=
        exists_maximize_of_unfolds_run hp hfree h
      obtain ⟨reduced, diagnostics, hlearned, rfl, -⟩ := exists_of_conclude_eq_ok hr.symm
      cases o with
      | error error => cases hlearned
      | ok outcome =>
          cases hlearned
          exact ⟨front, body, back, inner, outcome, hfront, hback, hevents, hrelayed, hinner, rfl⟩

/-- **A run that succeeds, with free weights or without.**  It was prepared, and between records it
has put one question or made a maximisation. -/
theorem Learner.exists_preparation_of_unfolds_run {net : Network Float} {mode : EvidenceMode}
    {backend : Backend} {level : LogLevel} {allowance : Nat} {options : LearnOptions}
    {learner after : Learner net.formulaCount}
    {events : List (Event (Consult Float net.formulaCount) Consult.Answer)}
    {learned : Learned net.formulaCount}
    (h : (run net mode backend level allowance options learner).Unfolds events
      (some (after, .ok learned))) :
    ∃ p front body back, prepare net mode options = .ok p ∧ Silent front ∧ Silent back ∧
      events = front ++ body ++ back ∧
      ((p.partition.freeCount = 0 ∧ ∃ v, body = [.answered (.value .cost p.weights) (.ok v)] ∧
          learned = ⟨p.weights, .nothingFree v⟩) ∨
        (p.partition.freeCount ≠ 0 ∧ ∃ inner outcome,
          List.Forall₂ (Relayed p.partition.liftQuestion p.partition.liftAnswer) inner body ∧
          (maximize level p.options.settings allowance p.reduced).Unfolds inner
            (some (.ok outcome)) ∧
          learned = ⟨p.partition.expand outcome.estimate, .ofOutcome outcome⟩)) := by
  rcases unfolds_run h with ⟨_, -, -, hr⟩ | ⟨error, -, -, hr⟩ |
    ⟨p, hp, front, body, back, r, hfront, hback, hevents, hbody, hr⟩
  · cases hr
  · cases hr
  · obtain ⟨ended, rfl, hconclude⟩ := Option.map_eq_some_iff.1 hr.symm
    obtain ⟨reduced, diagnostics, rfl, hlearned, -⟩ := exists_of_conclude_eq_ok hconclude
    refine ⟨p, front, body, back, hp, hfront, hback, hevents, ?_⟩
    by_cases hfree : p.partition.freeCount = 0
    · rw [optimize_of_freeCount_eq_zero level allowance p hfree] at hbody
      cases hbody with
      | ask answer rest =>
          obtain ⟨rfl, hended⟩ := Dialogue.unfolds_done rest
          cases answer with
          | error error => cases hended
          | ok v =>
              cases hended
              exact .inl ⟨hfree, v, rfl, hlearned⟩
    · obtain ⟨inner, o, hinner, hrelayed, ho⟩ := unfolds_optimize_of_freeCount_ne_zero hfree hbody
      obtain ⟨ended, rfl, hended⟩ := Option.map_eq_some_iff.1 ho.symm
      cases ended with
      | error error => cases hended
      | ok outcome =>
          cases hended
          exact .inr ⟨hfree, inner, outcome, hrelayed, hinner, hlearned⟩

/-! ### The reduced objective -/

/-- **A maximisation over free weights hears the reduced objective** if the objective gives the
answers. -/
theorem admitted_of_relayed {p : Partition Float n} {o : Objective Float}
    {inner : List (Event (Consult Float p.freeCount) Consult.Answer)}
    {body : List (Event (Consult Float n) Consult.Answer)}
    (h : List.Forall₂ (Relayed p.liftQuestion p.liftAnswer) inner body)
    (hbody : Admitted o.Answers body) : Admitted (p.reducedObjective o).Answers inner := by
  induction h with
  | nil => exact admitted_nil
  | cons hfirst _ ih =>
      cases hfirst with
      | answered q a =>
          obtain ⟨hanswer, hrest⟩ := admitted_cons_answered.1 hbody
          obtain rfl : a = o.answer (p.liftQuestion q) := hanswer
          exact admitted_cons_answered.2 ⟨(p.answer_reducedObjective o q).symm, ih hrest⟩
      | noted record => exact admitted_cons_noted.2 (ih (admitted_cons_noted.1 hbody))

/-- A gradient of the reduced objective consists of the free entries of the objective's. -/
theorem Partition.gradient_reducedObjective_eq_ok_iff (p : Partition Float n)
    (o : Objective Float) (x : Vector Float p.freeCount) (g : Array Float) :
    (p.reducedObjective o).gradient x.toArray = .ok g ↔
      p.reduceGradient (o.gradient (p.expand x).toArray) = .ok g := by
  rw [p.gradient_reducedObjective]
  exact mapError_eq_ok_iff

/-- **Where the objective has a gradient of its own, so has the reduced objective.** -/
theorem Partition.gradient_reducedObjective_ne (p : Partition Float n) {o : Objective Float}
    {x : Vector Float p.freeCount}
    (h : o.gradient (p.expand x).toArray ≠ .error .gradientNotImplemented) :
    (p.reducedObjective o).gradient x.toArray ≠ .error .gradientNotImplemented := by
  rw [p.gradient_reducedObjective]
  cases hg : o.gradient (p.expand x).toArray with
  | error error =>
      rw [hg] at h
      intro hne
      exact h (congrArg _ (Except.error.inj hne))
  | ok g =>
      by_cases hsize : g.size = n
      · rw [p.liftAnswer_gradient_of_size x hsize]
        intro hne
        cases hne
      · rw [p.liftAnswer_gradient_of_size_ne x hsize]
        intro hne
        cases hne

/-! ### Memoryless objectives -/

/-- **A run on a memoryless objective that ends** has made a maximisation that heard the reduced
objective.  Between records, the transcript is that of the maximisation, about expanded vectors. -/
theorem Learner.exists_maximize_of_result {net : Network Float} {o : Objective Float}
    {level : LogLevel} {allowance : Nat} {options : LearnOptions}
    {learner : Learner net.formulaCount} {p : Preparation net.formulaCount}
    (hp : prepare net o.mode options = .ok p) (hfree : p.partition.freeCount ≠ 0)
    {result : RunResult net.formulaCount}
    (h : ((run net o.mode .available level allowance options learner).run o.respond ()).result =
      some result) :
    ∃ front body back inner ended, Silent front ∧ Silent back ∧
      ((run net o.mode .available level allowance options learner).run o.respond ()).transcript =
        front ++ body ++ back ∧
      List.Forall₂ (Relayed p.partition.liftQuestion p.partition.liftAnswer) inner body ∧
      Admitted (p.partition.reducedObjective o).Answers inner ∧
      (maximize level p.options.settings allowance p.reduced).Unfolds inner (some ended) ∧
      result = learner.conclude p (learnedFrom ended) := by
  have hcourse := Dialogue.unfolds_run o.respond
    (run net o.mode .available level allowance options learner) ()
  have hadmitted : Admitted o.Answers _ := Objective.admitted_run_respond
    (run net o.mode .available level allowance options learner)
  rw [h] at hcourse
  obtain ⟨front, body, back, inner, ended, hfront, hback, hevents, hrelayed, hinner, hr⟩ :=
    exists_maximize_of_unfolds_run hp hfree hcourse
  rw [hevents] at hadmitted ⊢
  exact ⟨front, body, back, inner, ended, hfront, hback, rfl, hrelayed,
    admitted_of_relayed hrelayed hadmitted.enclosed, hinner, hr⟩

/-- **A run on a memoryless objective that succeeds** has made a maximisation that heard the reduced
objective and succeeded.  Between records, the transcript is that of the maximisation, about
expanded vectors. -/
theorem Learner.exists_outcome_of_result {net : Network Float} {o : Objective Float}
    {backend : Backend} {level : LogLevel} {allowance : Nat} {options : LearnOptions}
    {learner after : Learner net.formulaCount} {p : Preparation net.formulaCount}
    (hp : prepare net o.mode options = .ok p) (hfree : p.partition.freeCount ≠ 0)
    {learned : Learned net.formulaCount}
    (h : ((run net o.mode backend level allowance options learner).run o.respond ()).result =
      some (after, .ok learned)) :
    ∃ front body back inner outcome, Silent back ∧
      ((run net o.mode backend level allowance options learner).run o.respond ()).transcript =
        front ++ body ++ back ∧
      List.Forall₂ (Relayed p.partition.liftQuestion p.partition.liftAnswer) inner body ∧
      Admitted o.Answers body ∧ Admitted (p.partition.reducedObjective o).Answers inner ∧
      (maximize level p.options.settings allowance p.reduced).Unfolds inner
        (some (.ok outcome)) ∧
      learned = ⟨p.partition.expand outcome.estimate, .ofOutcome outcome⟩ := by
  have hcourse := Dialogue.unfolds_run o.respond
    (run net o.mode backend level allowance options learner) ()
  have hadmitted : Admitted o.Answers _ := Objective.admitted_run_respond
    (run net o.mode backend level allowance options learner)
  rw [h] at hcourse
  obtain ⟨front, body, back, inner, outcome, -, hback, hevents, hrelayed, hinner, hlearned⟩ :=
    exists_outcome_of_unfolds_run hp hfree hcourse
  rw [hevents] at hadmitted ⊢
  exact ⟨front, body, back, inner, outcome, hback, rfl, hrelayed, hadmitted.enclosed,
    admitted_of_relayed hrelayed hadmitted.enclosed, hinner, hlearned⟩

/-! ### Evaluated runs -/

/-- A test that the learned weights and figures of a run pass shows that the run succeeds. -/
theorem Learner.exists_learned_of_any {result : Option (RunResult n)} {test : Learned n → Bool}
    (h : (result.any fun r => r.2.toOption.any test) = true) :
    ∃ after learned, result = some (after, .ok learned) ∧ test learned = true := by
  obtain ⟨⟨after, r⟩, hr, hany⟩ := (Option.any_eq_true _ _).1 h
  obtain ⟨learned, rfl, htest⟩ := exists_ok_of_any hany
  exact ⟨after, learned, hr, htest⟩

end MarkovLogic
