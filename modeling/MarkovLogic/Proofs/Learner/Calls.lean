/-
**The reported numbers of calls.**

A run reports how often the objective was asked for its value and for its gradient.  The numbers are
right, differences apart, unless the search has stopped early: then a line search has given up, and
what it has asked is missing from them.

Main results:

* `callsOf_of_relayed` — over free weights as many calls are made as over all weights;
* `Learner.calls_unless_given_up` — **the reported numbers and the calls of a run**;
* `Learner.calls_lost` — a run that has made a call more than it reports.
-/
import MarkovLogic.Proofs.Learner.NumericalTrouble
import MarkovLogic.Proofs.Learner.ReportedFigures
import MarkovLogic.Proofs.Solver.Calls

set_option autoImplicit false

namespace MarkovLogic

open QuasiNewton

variable {n : Nat} {σ : Type}

/-- A question about free weights is a call of the same kind as the one about all weights. -/
theorem callsOf_of_relayed {p : Partition Float n}
    {inner : List (Event (Consult Float p.freeCount) Consult.Answer)}
    {events : List (Event (Consult Float n) Consult.Answer)}
    (h : List.Forall₂ (Relayed p.liftQuestion p.liftAnswer) inner events) :
    callsOf events = callsOf inner := by
  induction h with
  | nil => rfl
  | @cons e e' inner events hfirst _ ih =>
      have hevent : callsOf [e'] = callsOf [e] := by
        cases hfirst with
        | answered q a =>
            cases q with
            | value purpose x => cases purpose <;> rfl
            | gradient x => rfl
        | noted record => rfl
      rw [← List.singleton_append, callsOf_append, hevent, ih, ← callsOf_append,
        List.singleton_append]

/-- **The reported numbers and the calls of a run** that succeeds below the most talkative level,
whoever answers.  The reported numbers are those of the calls in a first part of its transcript.
Unless the run has stopped early, no call is made behind it.  If it has, the first part leads to the
last iterate, and behind it stand the calls of the line search that has given up there. -/
theorem Learner.calls_unless_given_up {net : Network Float} {mode : EvidenceMode}
    {backend : Backend} {level : LogLevel} (hlevel : level ≠ .debug) {allowance : Nat}
    {options : LearnOptions} {learner after : Learner net.formulaCount}
    {learned : Learned net.formulaCount}
    (respond : σ → (q : Consult Float net.formulaCount) → q.Answer × σ) (s : σ)
    (h : ((run net mode backend level allowance options learner).run respond s).result =
      some (after, .ok learned)) :
    ∃ counted lost,
      ((run net mode backend level allowance options learner).run respond s).transcript =
        counted ++ lost ∧
      learned.diagnostics.tally = callsOf counted ∧
      (learned.diagnostics.verdict ≠ .stoppedEarly → callsOf lost = Tally.zero) ∧
      (learned.diagnostics.verdict = .stoppedEarly →
        ∃ p criteria earlier last probes final, prepare net mode options = .ok p ∧
          p.options.settings.criteria p.partition.freeCount = .ok criteria ∧
          Trail criteria allowance p.reduced earlier last probes ∧
          last.GivesUp criteria allowance final ∧
          callsOf counted = probesOf probes ∧ callsOf lost = probesOf final) := by
  obtain ⟨p, front, body, back, hp, hfront, hback, hevents, hcases⟩ :=
    exists_preparation_of_unfolds_run (Dialogue.unfolds_of_result_run h)
  rw [hevents]
  rcases hcases with ⟨-, v, rfl, rfl⟩ | ⟨-, inner, outcome, hrelayed, hinner, rfl⟩
  · -- the only question is counted
    refine ⟨_, back, rfl, ?_, fun _ => hback.callsOf_eq, nofun⟩
    rw [callsOf_append, hfront.callsOf_eq]
    rfl
  · obtain ⟨criteria, earlier, last, probes, final, counted, lost, hcriteria, htrail, rfl, hcounted,
      hlost, htally, hidle, hgiven⟩ := exists_calls_of_unfolds_maximize hlevel hinner
    obtain ⟨counted', lost', hbefore, hbehind, rfl⟩ := exists_append_of_relayed hrelayed
    have hfirst : callsOf (front ++ counted') = callsOf counted := by
      rw [callsOf_append, hfront.callsOf_eq, callsOf_of_relayed hbefore, Tally.zero_add]
    have hlast : callsOf (lost' ++ back) = callsOf lost := by
      rw [callsOf_append, hback.callsOf_eq, callsOf_of_relayed hbehind, Tally.add_zero]
    -- the records around the maximisation go with the part next to them
    refine ⟨front ++ counted', lost' ++ back, by simp, ?_, ?_, ?_⟩
    · rw [hfirst]
      exact htally
    · intro hverdict
      rw [hlast]
      exact hidle hverdict
    · intro hverdict
      exact ⟨p, criteria, earlier, last, probes, final, hp, hcriteria, htrail, hgiven hverdict,
        hfirst.trans hcounted, hlast.trans hlost⟩

/-- The run on the hill reports all its calls. -/
theorem Learner.calls_unless_given_up_hill :
    ∃ after learned,
      ((run halfFixed .hard .available .off 5 .standard (.fresh 2)).run hill.respond ()).result =
        some (after, .ok learned) ∧
      learned.diagnostics.tally = callsOf
        ((run halfFixed .hard .available .off 5 .standard (.fresh 2)).run
          hill.respond ()).transcript := by
  have hlearned : (((run halfFixed .hard .available .off 5 .standard (.fresh 2)).run
      hill.respond ()).result.any fun r => r.2.toOption.any fun learned =>
        decide (learned.diagnostics.verdict ≠ .stoppedEarly)) = true := by
    decide +kernel
  obtain ⟨after, learned, hresult, hverdict⟩ := exists_learned_of_any hlearned
  have hlevel : LogLevel.off ≠ .debug := by decide
  obtain ⟨counted, lost, hevents, htally, hlost, -⟩ :=
    Learner.calls_unless_given_up hlevel hill.respond () hresult
  refine ⟨after, learned, hresult, ?_⟩
  rw [hevents, callsOf_append, hlost (of_decide_eq_true hverdict), Tally.add_zero]
  exact htally

/-- **A run may have made more calls than it reports**: over the cliff the line search asks for the
value at its first trial and gives up, and the call is not counted. -/
theorem Learner.calls_lost :
    ∃ after learned,
      ((run oneFree .hard .available .off 5 .standard (.fresh 1)).run cliff.respond ()).result =
        some (after, .ok learned) ∧
      learned.diagnostics.tally = ⟨1, 1⟩ ∧
      callsOf ((run oneFree .hard .available .off 5 .standard (.fresh 1)).run
        cliff.respond ()).transcript = ⟨2, 1⟩ := by
  have hlearned : (((run oneFree .hard .available .off 5 .standard (.fresh 1)).run
      cliff.respond ()).result.any fun r => r.2.toOption.any fun learned =>
        decide (learned.diagnostics.tally = ⟨1, 1⟩)) = true := by
    decide +kernel
  have hcalls : callsOf ((run oneFree .hard .available .off 5 .standard (.fresh 1)).run
      cliff.respond ()).transcript = ⟨2, 1⟩ := by
    decide +kernel
  obtain ⟨after, learned, hresult, htally⟩ := exists_learned_of_any hlearned
  exact ⟨after, learned, hresult, of_decide_eq_true htally, hcalls⟩

end MarkovLogic
