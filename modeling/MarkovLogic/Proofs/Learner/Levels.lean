/-
**Recording does not change what is learned.**

How much a run records decides over more than records: at the most talkative level the objective is
asked about the start before the search begins.  On a memoryless objective a run nevertheless leaves
the same behind at all levels, the learner with its phase, its preparation and its weights, and what
was learned or the error, whether or not those first evaluations fail.

Main results:

* `Learner.same_result_at_all_levels` — **a run ends alike at all levels**.
-/
import MarkovLogic.Proofs.Learner.Reduction
import MarkovLogic.Proofs.Solver.Preview

set_option autoImplicit false

namespace MarkovLogic

variable {n : Nat}

/-- A learner's maximisation ends alike at all levels. -/
theorem result_run_optimize_eq (o : Objective Float) (level level' : LogLevel) (allowance : Nat)
    (p : Preparation n) :
    ((optimize level allowance p).run o.respond ()).result =
      ((optimize level' allowance p).run o.respond ()).result := by
  by_cases hfree : p.partition.freeCount = 0
  · rw [result_run_optimize_of_freeCount_eq_zero _ _ _ _ hfree,
      result_run_optimize_of_freeCount_eq_zero _ _ _ _ hfree]
  · rw [result_run_optimize_respond _ _ _ _ hfree, result_run_optimize_respond _ _ _ _ hfree,
      result_run_maximize_eq _ level level']

/-- **A run ends alike at all levels.**  On a memoryless objective, runs of the same learner with
the same options that differ in what they record are both left unfinished, or leave the same learner
behind with the same weights and figures, or with the same error. -/
theorem Learner.same_result_at_all_levels (net : Network Float) (o : Objective Float)
    (backend : Backend) (level level' : LogLevel) (allowance : Nat) (options : LearnOptions)
    (learner : Learner net.formulaCount) :
    ((run net o.mode backend level allowance options learner).run o.respond ()).result =
      ((run net o.mode backend level' allowance options learner).run o.respond ()).result := by
  cases backend with
  | unavailable => rfl
  | available =>
      cases hp : prepare net o.mode options with
      | error error => rw [result_run_of_unprepared hp, result_run_of_unprepared hp]
      | ok p =>
          rw [result_run_of_prepare hp, result_run_of_prepare hp,
            result_run_optimize_eq o level level']

end MarkovLogic
