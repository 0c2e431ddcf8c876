/-
**A failed probe ends the descent.**

Neither line search tries another step after a probe that failed, and the descent itself goes on
from no such probe either: inside a line search the failure becomes the reason of giving up, which
is a result, and outside of one it is the error with which the descent ends.  Hence the descent
raises no error but that of its very last probe.

Main definitions:

* `Search.Heeds` — the search ends with its first failed probe, in a way that the error determines;
* `Attempt.Heeds` — an attempt gives up with the error of that probe;
* `QuasiNewton.Brings` — how a descent may end after an error.

Main results:

* `MoreThuente.heeds_search`, `HagerZhang.heeds_search` — both line searches heed failed probes;
* `QuasiNewton.heeds_descend` — **so does the descent**.
-/
import MarkovLogic.Solver.QuasiNewton

set_option autoImplicit false

namespace MarkovLogic

variable {n : Nat} {α β τ : Type}

/-! ### Heeding failed probes -/

/-- After a failed probe the search asks nothing and ends, with a result that `ends` relates to the
error; where no probe fails it ends with a result of the kind `final`. -/
inductive Search.Heeds (final : α → Prop) (ends : OptimizationError Float → α → Prop) :
    Search Float n α → Prop
  | done {a : α} (result : final a) : Heeds final ends (.done a)
  | unfinished : Heeds final ends .unfinished
  | cost {x : Vector Float n} {next : Except (OptimizationError Float) Float → Search Float n α}
      (failed : ∀ error, ∃ a, next (.error error) = .done a ∧ ends error a)
      (found : ∀ v, Heeds final ends (next (.ok v))) : Heeds final ends (.ask (.cost x) next)
  | gradient {x : Vector Float n}
      {next : Except (OptimizationError Float) (Vector Float n) → Search Float n α}
      (failed : ∀ error, ∃ a, next (.error error) = .done a ∧ ends error a)
      (found : ∀ g, Heeds final ends (next (.ok g))) : Heeds final ends (.ask (.gradient x) next)

namespace Search

variable {final : α → Prop} {ends : OptimizationError Float → α → Prop} {final' : β → Prop}
  {ends' : OptimizationError Float → β → Prop}

/-- A sequence heeds failed probes if its parts do, and if what comes next ends at once where the
first part ended with an error. -/
theorem heeds_bind {d : Search Float n α} {f : α → Search Float n β} (hd : Heeds final ends d)
    (hf : ∀ a, final a → Heeds final' ends' (f a))
    (he : ∀ error a, ends error a → ∃ b, f a = .done b ∧ ends' error b) :
    Heeds final' ends' (d >>= f) := by
  induction hd with
  | done result => exact hf _ result
  | unfinished => exact .unfinished
  | cost failed _ ih =>
      refine .cost (fun error => ?_) fun v => ih v
      obtain ⟨a, ha, hend⟩ := failed error
      rw [ha]
      exact he error a hend
  | gradient failed _ ih =>
      refine .gradient (fun error => ?_) fun g => ih g
      obtain ⟨a, ha, hend⟩ := failed error
      rw [ha]
      exact he error a hend

/-- Counting the probes changes nothing. -/
theorem heeds_tallied {d : Search Float n α} (hd : Heeds final ends d)
    (count : τ → Probe Float n → τ) (t : τ) :
    Heeds (fun a => final a.1) (fun error a => ends error a.1) (d.tallied count t) := by
  induction hd generalizing t with
  | done result => exact .done result
  | unfinished => exact .unfinished
  | cost failed _ ih =>
      refine .cost (fun error => ?_) fun v => ih v _
      obtain ⟨a, ha, hend⟩ := failed error
      rw [ha]
      exact ⟨_, rfl, hend⟩
  | gradient failed _ ih =>
      refine .gradient (fun error => ?_) fun g => ih g _
      obtain ⟨a, ha, hend⟩ := failed error
      rw [ha]
      exact ⟨_, rfl, hend⟩

end Search

/-! ### Attempts -/

namespace Attempt

/-- The attempt gives up with the error of its first failed probe. -/
def Heeds (m : Attempt n α) : Prop :=
  Search.Heeds (fun _ => True) (fun error r => r = .error (.evaluation error)) m.run

theorem heeds_pure (a : α) : Heeds (pure a : Attempt n α) := .done trivial

theorem heeds_fail (failure : StepFailure) : Heeds (fail failure : Attempt n α) := .done trivial

theorem heeds_outOfSteps : Heeds (outOfSteps : Attempt n α) := .unfinished

theorem heeds_ite {c : Prop} [Decidable c] {m m' : Attempt n α} (h : Heeds m) (h' : Heeds m') :
    Heeds (if c then m else m') := by
  split
  · exact h
  · exact h'

theorem heeds_lift (r : Except StepFailure α) : Heeds (liftM r : Attempt n α) := by
  cases r <;> exact .done trivial

theorem heeds_cost (x : Vector Float n) : Heeds (cost x) :=
  .cost (fun _ => ⟨_, rfl, rfl⟩) fun _ => .done trivial

theorem heeds_gradient (x : Vector Float n) : Heeds (gradient x) :=
  .gradient (fun _ => ⟨_, rfl, rfl⟩) fun _ => .done trivial

theorem heeds_bind {m : Attempt n α} {f : α → Attempt n β} (hm : Heeds m)
    (hf : ∀ a, Heeds (f a)) : Heeds (m >>= f) := by
  rw [Heeds, ExceptT.run_bind]
  refine Search.heeds_bind hm (fun r _ => ?_) fun error r hr => ?_
  · cases r with
    | ok a => exact hf a
    | error failure => exact .done trivial
  · subst hr
    exact ⟨_, rfl, rfl⟩

end Attempt

open Attempt

theorem heeds_trialAt (ray : Ray n) (step : Float) : Heeds (trialAt ray step) := by
  refine heeds_bind (heeds_cost _) fun value => ?_
  exact heeds_bind (heeds_gradient _) fun gradient => heeds_pure _

/-! ### The line searches -/

namespace MoreThuente

theorem heeds_rounds (ray : Ray n) (allowance : Nat) (s : State) :
    Heeds (rounds ray allowance s) := by
  induction allowance generalizing s with
  | zero => exact heeds_outOfSteps
  | succ allowance ih =>
      -- one trial, then either its step or another round
      refine heeds_bind (heeds_trialAt ray _) fun probed => heeds_ite (heeds_pure _) ?_
      refine heeds_bind (heeds_lift _) fun next => ?_
      exact heeds_ite (ih _) (ih _)

/-- The search by safeguarded interpolation gives up with the error of its first failed probe. -/
theorem heeds_search (ray : Ray n) (allowance : Nat) : Heeds (search ray allowance) := by
  refine heeds_ite (heeds_fail _) ?_
  exact heeds_rounds ray allowance _

end MoreThuente

namespace HagerZhang

theorem heeds_bisect (ray : Ray n) (allowance : Nat) (low : Trial) (high : Float) :
    Heeds (bisect ray allowance low high) := by
  induction allowance generalizing low high with
  | zero => exact heeds_outOfSteps
  | succ allowance ih =>
      exact heeds_bind (heeds_trialAt ray _) fun middle => heeds_ite (heeds_pure _) (ih _ _)

theorem heeds_update (ray : Ray n) (allowance : Nat) (i : Interval) (c : Trial) :
    Heeds (update ray allowance i c) := by
  refine heeds_ite (heeds_pure _) (heeds_ite (heeds_pure _) (heeds_ite (heeds_pure _) ?_))
  exact heeds_ite (heeds_bisect ray allowance _ _) (heeds_fail _)

theorem heeds_doubleSecant (ray : Ray n) (allowance : Nat) (i : Interval) :
    Heeds (doubleSecant ray allowance i) := by
  refine heeds_bind (heeds_trialAt ray _) fun c => ?_
  refine heeds_bind (heeds_update ray allowance i c) fun j => heeds_ite ?_ (heeds_ite ?_ ?_)
  · exact heeds_bind (heeds_trialAt ray _) fun d => heeds_update ray allowance j d
  · exact heeds_bind (heeds_trialAt ray _) fun d => heeds_update ray allowance j d
  · exact heeds_pure _

theorem heeds_rounds (ray : Ray n) (unit : Trial) (whole allowance : Nat) (i : Interval)
    (best : Trial) : Heeds (rounds ray unit whole allowance i best) := by
  induction allowance generalizing i best with
  | zero =>
      exact heeds_ite (heeds_pure _) heeds_outOfSteps
  | succ allowance ih =>
      refine heeds_ite (heeds_pure _) (heeds_bind (heeds_doubleSecant ray whole i) fun j => ?_)
      refine heeds_ite (heeds_bind (heeds_trialAt ray _) fun d => ?_) (ih _ _)
      exact heeds_bind (heeds_update ray whole j d) fun j => ih _ _

/-- The search by secant steps gives up with the error of its first failed probe. -/
theorem heeds_search (ray : Ray n) (allowance : Nat) : Heeds (search ray allowance) := by
  refine heeds_bind (heeds_trialAt ray _) fun a => ?_
  refine heeds_bind (heeds_trialAt ray _) fun b => ?_
  refine heeds_bind (heeds_trialAt ray _) fun unit => ?_
  exact heeds_rounds ray unit allowance allowance _ _

end HagerZhang

/-! ### The descent -/

namespace QuasiNewton

/-- What may become of the error of a probe: the descent raises it, or ends with a result. -/
def Brings (error : OptimizationError Float) (r : Except (OptimizationError Float) (Halt n)) :
    Prop :=
  r = .error error ∨ ∃ halt, r = .ok halt

/-- The descent has a result. -/
def Settled (r : Except (OptimizationError Float) (Halt n)) : Prop := ∃ halt, r = .ok halt

theorem heeds_stepAlong (criteria : Criteria) (allowance : Nat) (ray : Ray n) :
    Attempt.Heeds (stepAlong criteria allowance ray) := by
  unfold stepAlong
  split
  · exact MoreThuente.heeds_search ray allowance
  · exact HagerZhang.heeds_search ray allowance

/-- Outside a line search the error of the gradient is raised, inside it ends with a result. -/
theorem heeds_iterate (criteria : Criteria) (allowance left : Nat) (s : Iterate n) :
    Search.Heeds Settled Brings (iterate criteria allowance left s) := by
  induction left generalizing s with
  | zero =>
      unfold iterate
      split
      · exact .done ⟨_, rfl⟩
      · exact .done ⟨_, rfl⟩
  | succ left ih =>
      unfold iterate
      split
      · exact .done ⟨_, rfl⟩
      · refine Search.heeds_bind (Search.heeds_tallied (heeds_stepAlong criteria allowance _) _ _)
          (fun step _ => ?_) fun error step hstep => ?_
        · obtain ⟨step, probes⟩ := step
          cases step with
          | error failure => exact .done ⟨_, rfl⟩
          | ok found =>
              -- the gradient at the new point is asked for outside of the line search
              exact .gradient (fun error => ⟨_, rfl, .inl rfl⟩) fun g => ih _
        · -- the line search has given up with the error, which the descent takes for a reason
          obtain ⟨step, probes⟩ := step
          subst hstep
          exact ⟨_, rfl, .inr ⟨_, rfl⟩⟩

/-- **A failed probe ends the descent**: with its error outside a line search, with a result inside
one.  Without a failed probe the descent has a result. -/
theorem heeds_descend (criteria : Criteria) (allowance : Nat) (start : Vector Float n) :
    Search.Heeds Settled Brings (descend criteria allowance start) := by
  refine .cost (fun error => ⟨_, rfl, .inl rfl⟩) fun cost => ?_
  refine .gradient (fun error => ⟨_, rfl, .inl rfl⟩) fun gradient => ?_
  exact heeds_iterate criteria allowance criteria.cap _

end QuasiNewton

end MarkovLogic
