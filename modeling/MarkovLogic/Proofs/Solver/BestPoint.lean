/-
**The best point of a descent.**

A descent carries two points with it, the last one and the best one, each with a cost.  At every
iterate both costs are those told of their points, the best cost has not risen above the first one,
and the last point is the best one unless its cost has not fallen below the best.  So what a descent
hands over at its end is a point that was probed with the cost of that point, no worse than the
start; and the gradient it hands over is that of the last point, which is another one only if it is
no better.

Main definitions:

* `Iterate.Sound` — what holds of every iterate.

Main results:

* `sound_advance`, `Descends.sound` — an iteration preserves it, and so does a chain of them;
* `exists_sound_of_unfolds_descend` — **the end of a descent** that has a result;
* `exists_refused_of_unfolds_descend` — what a descent without a result was refused.
-/
import MarkovLogic.Proofs.Solver.Iterations
import MarkovLogic.Proofs.Solver.ProbedStep

set_option autoImplicit false

namespace MarkovLogic.QuasiNewton

variable {n : Nat} {allowed : (q : Probe Float n) → q.Answer → Prop} {criteria : Criteria}
  {allowance : Nat}

/-! ### Iterates -/

/-- Both points have the costs told of them, the best one is the start or better, and the last one
is the best one or, after some iteration, no better. -/
structure Iterate.Sound (allowed : (q : Probe Float n) → q.Answer → Prop) (start : Vector Float n)
    (first : Float) (s : Iterate n) : Prop where
  cost : allowed (.cost s.point) (.ok s.cost)
  gradient : allowed (.gradient s.point) (.ok s.gradient)
  best : Probed allowed s.bestPoint s.bestCost
  improved : (s.bestPoint = start ∧ s.bestCost = first) ∨ s.bestCost < first
  last : (s.point = s.bestPoint ∧ s.cost = s.bestCost) ∨ (0 < s.iteration ∧ ¬s.cost < s.bestCost)

theorem sound_initial {start : Vector Float n} {cost : Float} {gradient : Vector Float n}
    (hcost : allowed (.cost start) (.ok cost))
    (hgradient : allowed (.gradient start) (.ok gradient)) :
    (Iterate.initial start cost gradient).Sound allowed start cost where
  cost := hcost
  gradient := hgradient
  best := ⟨hcost, gradient, hgradient⟩
  improved := .inl ⟨rfl, rfl⟩
  last := .inl ⟨rfl, rfl⟩

/-- **An iteration to a probed point keeps iterates sound.** -/
theorem sound_advance {start : Vector Float n} {first : Float} {s : Iterate n}
    (hs : s.Sound allowed start first) {point : Vector Float n} {cost : Float}
    {gradient : Vector Float n} (hpoint : Probed allowed point cost)
    (hgradient : allowed (.gradient point) (.ok gradient)) (probes : Tally) :
    (s.advance criteria point cost gradient probes).Sound allowed start first := by
  by_cases hbetter : cost < s.bestCost
  · -- the new point is the best one
    have himproved : cost < first := by
      rcases hs.improved with ⟨-, heq⟩ | hlt
      · rwa [← heq]
      · exact Double.lt_trans hbetter hlt
    exact {
      cost := hpoint.1
      gradient := hgradient
      best := by simpa [Iterate.advance, hbetter] using hpoint
      improved := .inr (by simpa [Iterate.advance, hbetter] using himproved)
      last := .inl (by simp [Iterate.advance, hbetter]) }
  · exact {
      cost := hpoint.1
      gradient := hgradient
      best := by simpa [Iterate.advance, hbetter] using hs.best
      improved := by simpa [Iterate.advance, hbetter] using hs.improved
      last := .inr ⟨Nat.succ_pos _, by simp [Iterate.advance, hbetter]⟩ }

/-- The line search at an iterate leads to a point that was probed. -/
theorem ensures_stepping (hfinite : ∀ x c, allowed (.cost x) (.ok c) → c.isFinite = true)
    (s : Iterate n) :
    Dialogue.Ensures allowed (s.stepping criteria allowance) fun step =>
      ∀ found, step.1 = .ok found → Probed allowed found.1 found.2 :=
  Dialogue.ensures_tallied (ensures_stepAlong hfinite criteria allowance _) _ _

/-- **A chain of iterations keeps iterates sound.** -/
theorem Descends.sound (hfinite : ∀ x c, allowed (.cost x) (.ok c) → c.isFinite = true)
    {start : Vector Float n} {first : Float} {left left' : Nat} {s s' : Iterate n}
    {events : Probes n} (h : Descends criteria allowance left s events left' s')
    (hadmitted : Admitted allowed events) (hs : s.Sound allowed start first) :
    s'.Sound allowed start first := by
  refine h.preserves (fun s front s' hadvances hfront hs => ?_) hadmitted hs
  cases hadvances with
  | intro gradient _ found =>
      obtain ⟨hsearch, hgradient⟩ := admitted_append.1 hfront
      exact sound_advance hs (ensures_stepping hfinite _ _ _ found hsearch _ rfl)
        (hgradient _ _ (List.mem_singleton_self _)) _

/-! ### The end -/

/-- **The end of a descent.**  If answers are as allowed and costs finite, then a descent that has a
result ends at a sound iterate, whose best point and cost it hands over.  If it hands over a
gradient, that is the one at the last point, and the answer to its last probe. -/
theorem exists_sound_of_unfolds_descend
    (hfinite : ∀ x c, allowed (.cost x) (.ok c) → c.isFinite = true) {start : Vector Float n}
    {events : Probes n} {halt : Halt n} (hadmitted : Admitted allowed events)
    (h : (descend criteria allowance start).Unfolds events (some (.ok halt))) :
    ∃ (first : Float) (s : Iterate n), allowed (.cost start) (.ok first) ∧
      s.Sound allowed start first ∧
      halt.bestPoint = s.bestPoint ∧ halt.bestCost = s.bestCost ∧
      ∀ g, halt.gradient = some g → g = s.gradient ∧ halt.iterations = s.iteration ∧
        ∃ before, events = before ++ [.answered (.gradient s.point) (.ok g)] := by
  rcases unfolds_descend h with ⟨_, _, hr⟩ | ⟨_, _, hr⟩ | ⟨first, gradient, rest, rfl, hiterate⟩
  · cases hr
  · cases hr
  · obtain ⟨hfirst, hgradient, hrest⟩ := by simpa using hadmitted
    obtain ⟨chain, left, s, final, hchain, hfinal, rfl⟩ :=
      exists_descends_of_unfolds_iterate hiterate
    have hsound : s.Sound allowed start first :=
      hchain.sound hfinite (admitted_append.1 hrest).1 (sound_initial hfirst hgradient)
    -- a chain of no iterations ends at the start, whose gradient was probed last
    have hlast : ∃ before, Event.answered (.cost start) (.ok first) ::
        .answered (.gradient start) (.ok gradient) :: chain =
          before ++ [.answered (.gradient s.point) (.ok s.gradient)] := by
      rcases hchain.last with ⟨rfl, rfl⟩ | ⟨before, rfl⟩
      · exact ⟨[_], rfl⟩
      · exact ⟨_ :: _ :: before, rfl⟩
    refine ⟨first, s, hfirst, hsound, ?_⟩
    cases hfinal with
    | converged =>
        refine ⟨rfl, rfl, fun g hg => ?_⟩
        cases hg
        exact ⟨rfl, rfl, by simpa using hlast⟩
    | capReached =>
        refine ⟨rfl, rfl, fun g hg => ?_⟩
        cases hg
        exact ⟨rfl, rfl, by simpa using hlast⟩
    | gaveUp => exact ⟨rfl, rfl, fun g hg => by cases hg⟩

/-- A descent that ends with an error was refused cost or gradient of the start, or the gradient at
a point where a line search had found it. -/
theorem exists_refused_of_unfolds_descend
    (hfinite : ∀ x c, allowed (.cost x) (.ok c) → c.isFinite = true) {start : Vector Float n}
    {events : Probes n} {error : OptimizationError Float} (hadmitted : Admitted allowed events)
    (h : (descend criteria allowance start).Unfolds events (some (.error error))) :
    allowed (.cost start) (.error error) ∨ allowed (.gradient start) (.error error) ∨
      ∃ x g, allowed (.gradient x) (.ok g) ∧ allowed (.gradient x) (.error error) := by
  rcases unfolds_descend h with ⟨_, hcost, hr⟩ | ⟨_, hgradient, hr⟩ | ⟨_, _, rest, rfl, hiterate⟩
  · cases hr
    exact .inl (hadmitted _ _ hcost)
  · cases hr
    exact .inr (.inl (hadmitted _ _ hgradient))
  · obtain ⟨chain, left, s, final, -, hfinal, rfl⟩ := exists_descends_of_unfolds_iterate hiterate
    obtain ⟨-, -, -, hfinally⟩ := by simpa using hadmitted
    cases hfinal with
    | refused _ _ found =>
        obtain ⟨hsearch, hrefused⟩ := admitted_append.1 hfinally
        obtain ⟨-, g, hg⟩ := ensures_stepping hfinite s _ _ found hsearch _ rfl
        exact .inr (.inr ⟨_, g, hg, hrefused _ _ (List.mem_singleton_self _)⟩)

end MarkovLogic.QuasiNewton
