/-
**An accepted step was probed.**

Both line searches keep several trials at hand and hand over the one they settle on as a point with
a cost.  Neither search ever mixes up a point with the cost of another one: every trial it keeps is
the answer to a probe of its own point, and so is the one that is accepted.  The placeholders that a
search starts with, of which nothing was probed, are gone before anything is accepted.

Main definitions:

* `Attempt.Ensures` — what an attempt ensures of what it finds;
* `Probed` — a point at which the cost came out as told and the gradient was found;
* `Trial.Genuine` — a trial with the cost of its own point.

Main results:

* `ensures_trialAt` — a trial is genuine;
* `MoreThuente.ensures_search`, `HagerZhang.ensures_search` — **what a line search accepts was
  probed**;
* `QuasiNewton.ensures_stepAlong` — so was the step of an iteration.
-/
import MarkovLogic.Proofs.Dialogue.Ensures
import MarkovLogic.Proofs.Scalar.Order
import MarkovLogic.Solver.QuasiNewton

set_option autoImplicit false

namespace MarkovLogic

variable {n : Nat} {α β : Type} {allowed : (q : Probe Float n) → q.Answer → Prop}

/-! ### Attempts -/

namespace Attempt

variable {post : α → Prop} {post' : β → Prop}

/-- What the attempt finds has the property; nothing is said of its giving up. -/
def Ensures (allowed : (q : Probe Float n) → q.Answer → Prop) (m : Attempt n α)
    (post : α → Prop) : Prop :=
  Dialogue.Ensures allowed m.run fun r => ∀ a, r = .ok a → post a

theorem ensures_pure {a : α} (h : post a) : Ensures allowed (pure a : Attempt n α) post := by
  refine Dialogue.ensures_done fun b hb => ?_
  cases hb
  exact h

theorem ensures_fail (failure : StepFailure) :
    Ensures allowed (fail failure : Attempt n α) post := by
  refine Dialogue.ensures_done fun b hb => ?_
  cases hb

theorem ensures_outOfSteps : Ensures allowed (outOfSteps : Attempt n α) post :=
  Dialogue.ensures_unfinished

theorem ensures_ite {c : Prop} [Decidable c] {m m' : Attempt n α}
    (h : c → Ensures allowed m post) (h' : ¬c → Ensures allowed m' post) :
    Ensures allowed (if c then m else m') post := by
  split
  · exact h ‹_›
  · exact h' ‹_›

theorem ensures_lift (r : Except StepFailure α) (h : ∀ a, r = .ok a → post a) :
    Ensures allowed (liftM r : Attempt n α) post := by
  cases r with
  | error failure => exact ensures_fail failure
  | ok a => exact ensures_pure (h a rfl)

theorem ensures_cost (x : Vector Float n) :
    Ensures allowed (cost x) fun c => allowed (.cost x) (.ok c) := by
  refine Dialogue.ensures_ask fun answer hanswer => Dialogue.ensures_done fun c hc => ?_
  cases answer with
  | error error => cases hc
  | ok v =>
      cases hc
      exact hanswer

theorem ensures_gradient (x : Vector Float n) :
    Ensures allowed (gradient x) fun g => allowed (.gradient x) (.ok g) := by
  refine Dialogue.ensures_ask fun answer hanswer => Dialogue.ensures_done fun g hg => ?_
  cases answer with
  | error error => cases hg
  | ok v =>
      cases hg
      exact hanswer

theorem ensures_bind {m : Attempt n α} {f : α → Attempt n β} (hm : Ensures allowed m post)
    (hf : ∀ a, post a → Ensures allowed (f a) post') : Ensures allowed (m >>= f) post' := by
  rw [Ensures, ExceptT.run_bind]
  refine Dialogue.ensures_bind hm fun r hr => ?_
  cases r with
  | error failure => exact ensures_fail failure
  | ok a => exact hf a (hr a rfl)

end Attempt

open Attempt

/-! ### Trials -/

/-- At the point the cost came out as told, and the gradient was found. -/
def Probed (allowed : (q : Probe Float n) → q.Answer → Prop) (x : Vector Float n) (c : Float) :
    Prop :=
  allowed (.cost x) (.ok c) ∧ ∃ g, allowed (.gradient x) (.ok g)

/-- The trial has the cost of its own point. -/
def Trial.Genuine (allowed : (q : Probe Float n) → q.Answer → Prop) (ray : Ray n) (t : Trial) :
    Prop :=
  Probed allowed (ray.point t.step) t.value

/-- A trial is genuine, and at the step that was asked for. -/
theorem ensures_trialAt (ray : Ray n) (step : Float) :
    Ensures allowed (trialAt ray step) fun t => t.step = step ∧ t.Genuine allowed ray := by
  refine ensures_bind (ensures_cost _) fun value hvalue => ?_
  refine ensures_bind (ensures_gradient _) fun gradient hgradient => ?_
  exact ensures_pure ⟨rfl, hvalue, gradient, hgradient⟩

/-! ### The search by safeguarded interpolation -/

namespace MoreThuente

/-- What is accepted is the trial of the same round, whatever the interval is. -/
theorem ensures_rounds (ray : Ray n) (allowance : Nat) (s : State) :
    Ensures allowed (rounds ray allowance s) fun found => Probed allowed found.1 found.2 := by
  induction allowance generalizing s with
  | zero => exact ensures_outOfSteps
  | succ allowance ih =>
      refine ensures_bind (ensures_trialAt ray _) fun probed hprobed => ?_
      refine ensures_ite (fun _ => ensures_pure ?_) fun _ => ?_
      · obtain ⟨hstep, hgenuine⟩ := hprobed
        rw [← hstep]
        exact hgenuine
      · refine ensures_bind (ensures_lift _ fun _ _ => trivial) fun next _ => ?_
        exact ensures_ite (fun _ => ih _) fun _ => ih _

/-- What the search by safeguarded interpolation accepts was probed. -/
theorem ensures_search (ray : Ray n) (allowance : Nat) :
    Ensures allowed (search ray allowance) fun found => Probed allowed found.1 found.2 := by
  refine ensures_ite (fun _ => ensures_fail _) fun _ => ?_
  exact ensures_rounds ray allowance _

end MoreThuente

/-! ### The search by secant steps -/

namespace HagerZhang

/-- Both ends of the interval are genuine. -/
def Interval.Genuine (allowed : (q : Probe Float n) → q.Answer → Prop) (ray : Ray n)
    (i : Interval) : Prop :=
  i.low.Genuine allowed ray ∧ i.high.Genuine allowed ray

theorem ensures_bisect (ray : Ray n) (allowance : Nat) {low : Trial}
    (hlow : low.Genuine allowed ray) (high : Float) :
    Ensures allowed (bisect ray allowance low high) (Interval.Genuine allowed ray) := by
  induction allowance generalizing low high with
  | zero => exact ensures_outOfSteps
  | succ allowance ih =>
      refine ensures_bind (ensures_trialAt ray _) fun middle hmiddle => ?_
      refine ensures_ite (fun _ => ensures_pure ⟨hlow, hmiddle.2⟩) fun _ => ih ?_ _
      -- the low end stays or is the middle
      split
      · exact hmiddle.2
      · exact hlow

/-- What a genuine trial leaves of a genuine interval is genuine. -/
theorem ensures_update (ray : Ray n) (allowance : Nat) {i : Interval} {c : Trial}
    (hi : i.Genuine allowed ray) (hc : c.Genuine allowed ray) :
    Ensures allowed (update ray allowance i c) (Interval.Genuine allowed ray) := by
  refine ensures_ite (fun _ => ensures_pure hi) fun _ => ?_
  refine ensures_ite (fun _ => ensures_pure ⟨hi.1, hc⟩) fun _ => ?_
  refine ensures_ite (fun _ => ensures_pure ⟨hc, hi.2⟩) fun _ => ?_
  exact ensures_ite (fun _ => ensures_bisect ray allowance hi.1 _) fun _ => ensures_fail _

theorem ensures_doubleSecant (ray : Ray n) (allowance : Nat) {i : Interval}
    (hi : i.Genuine allowed ray) :
    Ensures allowed (doubleSecant ray allowance i) (Interval.Genuine allowed ray) := by
  refine ensures_bind (ensures_trialAt ray _) fun c hc => ?_
  refine ensures_bind (ensures_update ray allowance hi hc.2) fun j hj => ?_
  refine ensures_ite (fun _ => ?_) fun _ => ensures_ite (fun _ => ?_) fun _ => ensures_pure hj
  · exact ensures_bind (ensures_trialAt ray _) fun d hd => ensures_update ray allowance hj hd.2
  · exact ensures_bind (ensures_trialAt ray _) fun d hd => ensures_update ray allowance hj hd.2

/-- The best trial is genuine, whichever was the best before: costs that are finite can be compared,
so one of the three trials at hand is the best. -/
theorem genuine_bestOf (hfinite : ∀ x c, allowed (.cost x) (.ok c) → c.isFinite = true)
    {ray : Ray n} {i : Interval} {unit : Trial} (hi : i.Genuine allowed ray)
    (hunit : unit.Genuine allowed ray) (best : Trial) :
    (bestOf i unit best).Genuine allowed ray := by
  have hlow := hfinite _ _ hi.1.1
  have hhigh := hfinite _ _ hi.2.1
  have hone := hfinite _ _ hunit.1
  unfold bestOf
  dsimp only
  split
  · exact hunit
  · rename_i hnotUnit
    split
    · exact hi.2
    · rename_i hnotHigh
      split
      · exact hi.1
      · rename_i hnotLow
        simp only [Bool.and_eq_true, decide_eq_true_eq, not_and] at hnotUnit hnotHigh hnotLow
        exfalso
        rcases Double.le_total hlow hhigh with h | h
        · rcases Double.le_total hlow hone with h' | h'
          · exact hnotLow h h'
          · exact hnotUnit h' (Double.le_trans h' h)
        · rcases Double.le_total hhigh hone with h' | h'
          · exact hnotHigh h h'
          · exact hnotUnit (Double.le_trans h' h) h'

/-- What is accepted is the best trial so far. -/
theorem ensures_rounds (hfinite : ∀ x c, allowed (.cost x) (.ok c) → c.isFinite = true)
    (ray : Ray n) {unit : Trial} (hunit : unit.Genuine allowed ray) (whole allowance : Nat)
    {i : Interval} {best : Trial} (hi : i.Genuine allowed ray) (hbest : best.Genuine allowed ray) :
    Ensures allowed (rounds ray unit whole allowance i best)
      fun found => Probed allowed found.1 found.2 := by
  induction allowance generalizing i best with
  | zero => exact ensures_ite (fun _ => ensures_pure hbest) fun _ => ensures_outOfSteps
  | succ allowance ih =>
      refine ensures_ite (fun _ => ensures_pure hbest) fun _ => ?_
      refine ensures_bind (ensures_doubleSecant ray whole hi) fun j hj => ?_
      refine ensures_ite (fun _ => ?_) fun _ => ?_
      · refine ensures_bind (ensures_trialAt ray _) fun d hd => ?_
        refine ensures_bind (ensures_update ray whole hj hd.2) fun k hk => ?_
        exact ih hk (genuine_bestOf hfinite hk hunit best)
      · exact ih hj (genuine_bestOf hfinite hj hunit best)

/-- What the search by secant steps accepts was probed. -/
theorem ensures_search (hfinite : ∀ x c, allowed (.cost x) (.ok c) → c.isFinite = true)
    (ray : Ray n) (allowance : Nat) :
    Ensures allowed (search ray allowance) fun found => Probed allowed found.1 found.2 := by
  refine ensures_bind (ensures_trialAt ray _) fun a ha => ?_
  refine ensures_bind (ensures_trialAt ray _) fun b hb => ?_
  refine ensures_bind (ensures_trialAt ray _) fun unit hunit => ?_
  have hi : Interval.Genuine allowed ray ⟨a, b⟩ := ⟨ha.2, hb.2⟩
  exact ensures_rounds hfinite ray hunit.2 allowance allowance hi
    (genuine_bestOf hfinite hi hunit.2 _)

end HagerZhang

/-! ### The step of an iteration -/

/-- **The step of an iteration leads to a point that was probed**, with either line search. -/
theorem QuasiNewton.ensures_stepAlong
    (hfinite : ∀ x c, allowed (.cost x) (.ok c) → c.isFinite = true) (criteria : Criteria)
    (allowance : Nat) (ray : Ray n) :
    Ensures allowed (stepAlong criteria allowance ray)
      fun found => Probed allowed found.1 found.2 := by
  unfold stepAlong
  split
  · exact MoreThuente.ensures_search ray allowance
  · exact HagerZhang.ensures_search hfinite ray allowance

end MarkovLogic
