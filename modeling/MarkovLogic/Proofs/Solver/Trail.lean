/-
**The trail of a descent.**

A descent leaves a trail of iterates.  At each of them it has tested for convergence and gone on,
except at the last one, where it stops: because the test is met, because the cap is reached, or
because the line search of another iteration gives up.  The trail is as long as the number of the
last iterate says, and what holds of the first iterate and is kept by every iteration holds all
along.

Main definitions:

* `Trail` — the iterates that a descent has gone on from and the one it has reached, with the probes
  up to there;
* `BestOf` — a point with the smallest cost of some iterates.

Main results:

* `Trail.preserves` — **what every iteration preserves holds all along the trail**;
* `Trail.iteration`, `Trail.unconverged` — the length of a trail, and the test on the way;
* `Trail.sound` — its iterates are sound;
* `Trail.bestOf` — **the best point is the best of them**;
* `exists_trail_of_unfolds_descend` — **a descent with a result has a trail**, and ends at the last
  iterate of it.
-/
import MarkovLogic.Proofs.Solver.BestPoint

set_option autoImplicit false

namespace MarkovLogic.QuasiNewton

variable {n : Nat} {criteria : Criteria} {allowance : Nat} {start : Vector Float n}

/-- The iterates from which a descent has gone on, in their order, and the one that it has reached,
with the probes up to there. -/
inductive Trail (criteria : Criteria) (allowance : Nat) (start : Vector Float n) :
    List (Iterate n) → Iterate n → Probes n → Prop
  | initial (cost : Float) (gradient : Vector Float n) :
      Trail criteria allowance start [] (.initial start cost gradient)
        [.answered (.cost start) (.ok cost), .answered (.gradient start) (.ok gradient)]
  | further {earlier : List (Iterate n)} {s s' : Iterate n} {events front : Probes n}
      (trail : Trail criteria allowance start earlier s events)
      (advances : Advances criteria allowance s front s') :
      Trail criteria allowance start (earlier ++ [s]) s' (events ++ front)

namespace Trail

variable {earlier : List (Iterate n)} {s : Iterate n} {events : Probes n}

/-! ### Along a trail -/

/-- **What holds of the first iterate and is kept by every iteration holds all along the trail.** -/
theorem preserves {allowed : (q : Probe Float n) → q.Answer → Prop} {inv : Iterate n → Prop}
    (hinitial : ∀ cost gradient, allowed (.cost start) (.ok cost) →
      allowed (.gradient start) (.ok gradient) → inv (.initial start cost gradient))
    (hstep : ∀ s front s', Advances criteria allowance s front s' → Admitted allowed front →
      inv s → inv s')
    (h : Trail criteria allowance start earlier s events) (hadmitted : Admitted allowed events) :
    ∀ t ∈ earlier ++ [s], inv t := by
  induction h with
  | initial cost gradient =>
      intro t ht
      obtain rfl := List.mem_singleton.1 ht
      obtain ⟨hcost, hgradient⟩ := by simpa using hadmitted
      exact hinitial cost gradient hcost hgradient
  | @further earlier s s' events front trail advances ih =>
      -- the trail up to here gives the property of the iterate that is left behind
      obtain ⟨hevents, hfront⟩ := admitted_append.1 hadmitted
      have hbefore : ∀ t ∈ earlier ++ [s], inv t := ih hevents
      intro t ht
      rcases List.mem_append.1 ht with ht | ht
      · exact hbefore t ht
      · obtain rfl := List.mem_singleton.1 ht
        exact hstep s front t advances hfront (hbefore s (by simp))

/-- The number of an iterate is the number of those before it. -/
theorem iteration (h : Trail criteria allowance start earlier s events) :
    s.iteration = earlier.length := by
  induction h with
  | initial cost gradient => rfl
  | further trail advances ih =>
      cases advances with
      | intro gradient _ _ =>
          rw [List.length_append, List.length_singleton, ← ih]
          rfl

/-- The test of convergence was not met at any iterate that the descent has gone on from. -/
theorem unconverged (h : Trail criteria allowance start earlier s events) :
    ∀ t ∈ earlier, t.converged criteria = false := by
  induction h with
  | initial cost gradient =>
      intro t ht
      cases ht
  | further trail advances ih =>
      intro t ht
      rcases List.mem_append.1 ht with ht | ht
      · exact ih t ht
      · obtain rfl := List.mem_singleton.1 ht
        cases advances with
        | intro _ unconverged _ => exact unconverged

/-- Costs that are told being finite, the iterates of a trail are sound. -/
theorem sound {allowed : (q : Probe Float n) → q.Answer → Prop}
    (hfinite : ∀ x c, allowed (.cost x) (.ok c) → c.isFinite = true)
    (h : Trail criteria allowance start earlier s events) (hadmitted : Admitted allowed events) :
    ∀ t ∈ earlier ++ [s], ∃ first, t.Sound allowed start first := by
  have hinitial : ∀ cost gradient, allowed (.cost start) (.ok cost) →
      allowed (.gradient start) (.ok gradient) →
      ∃ first, (Iterate.initial start cost gradient).Sound allowed start first := by
    intro cost gradient hcost hgradient
    exact ⟨cost, sound_initial hcost hgradient⟩
  have hstep : ∀ s front s', Advances criteria allowance s front s' → Admitted allowed front →
      (∃ first, s.Sound allowed start first) → ∃ first, s'.Sound allowed start first := by
    rintro s front s' hadvances hfront ⟨first, hsound⟩
    -- one iteration is a chain of its own
    have hchain : Descends criteria allowance 1 s (front ++ []) 0 s' :=
      .further hadvances (.here 0 s')
    exact ⟨first, hchain.sound hfinite (by simpa using hfront) hsound⟩
  exact h.preserves hinitial hstep hadmitted

end Trail

/-! ### The best iterate -/

/-- The point is that of an iterate with this cost, and no iterate has a smaller one. -/
structure BestOf (iterates : List (Iterate n)) (point : Vector Float n) (cost : Float) : Prop where
  visited : ∃ t ∈ iterates, t.point = point ∧ t.cost = cost
  least : ∀ t ∈ iterates, ¬t.cost < cost

/-- An iterate that is better than the best one so far is the best one. -/
theorem BestOf.improve {iterates : List (Iterate n)} {point : Vector Float n} {cost : Float}
    (h : BestOf iterates point cost) {t : Iterate n} (hbetter : t.cost < cost) :
    BestOf (iterates ++ [t]) t.point t.cost where
  visited := ⟨t, List.mem_append_right _ (List.mem_singleton_self t), rfl, rfl⟩
  least s hs hlt := by
    rcases List.mem_append.1 hs with hs | hs
    · exact h.least s hs (Double.lt_trans hlt hbetter)
    · obtain rfl := List.mem_singleton.1 hs
      exact Double.not_lt_of_lt hlt hlt

/-- An iterate that is no better changes nothing. -/
theorem BestOf.keep {iterates : List (Iterate n)} {point : Vector Float n} {cost : Float}
    (h : BestOf iterates point cost) {t : Iterate n} (hworse : ¬t.cost < cost) :
    BestOf (iterates ++ [t]) point cost where
  visited := by
    obtain ⟨s, hs, hpoint⟩ := h.visited
    exact ⟨s, List.mem_append_left _ hs, hpoint⟩
  least s hs := by
    rcases List.mem_append.1 hs with hs | hs
    · exact h.least s hs
    · obtain rfl := List.mem_singleton.1 hs
      exact hworse

namespace Trail

variable {earlier : List (Iterate n)} {s : Iterate n} {events : Probes n}

/-- **The best point of an iterate is the best of the trail** up to there. -/
theorem bestOf (h : Trail criteria allowance start earlier s events) :
    BestOf (earlier ++ [s]) s.bestPoint s.bestCost := by
  induction h with
  | initial cost gradient =>
      refine ⟨⟨_, List.mem_singleton_self _, rfl, rfl⟩, fun t ht hlt => ?_⟩
      obtain rfl := List.mem_singleton.1 ht
      exact Double.not_lt_of_lt hlt hlt
  | @further earlier s s' events front trail advances ih =>
      cases advances with
      | @intro search point cost probes gradient unconverged found =>
          by_cases hbetter : cost < s.bestCost
          · simpa [Iterate.advance, hbetter] using
              ih.improve (t := s.advance criteria point cost gradient (probes.add ⟨0, 1⟩)) hbetter
          · simpa [Iterate.advance, hbetter] using
              ih.keep (t := s.advance criteria point cost gradient (probes.add ⟨0, 1⟩)) hbetter

/-! ### Longer trails -/

/-- A chain of iterations prolongs a trail by its iterates. -/
theorem append_descends (h : Trail criteria allowance start earlier s events)
    {left left' : Nat} {s' : Iterate n} {chain : Probes n}
    (hchain : Descends criteria allowance left s chain left' s') :
    ∃ later, Trail criteria allowance start (earlier ++ later) s' (events ++ chain) ∧
      left = later.length + left' := by
  induction hchain generalizing earlier events with
  | here left s => exact ⟨[], by simpa using h, by simp⟩
  | @further left left' s s₁ s' front rest first others ih =>
      obtain ⟨later, htrail, hleft⟩ := ih (h.further first)
      refine ⟨s :: later, by simpa using htrail, ?_⟩
      rw [hleft, List.length_cons]
      omega

end Trail

/-- At its end a descent hands over the best point of its last iterate. -/
theorem Ends.best_eq {s : Iterate n} {left : Nat} {final : Probes n} {halt : Halt n}
    (h : Ends criteria allowance s left final (.ok halt)) :
    halt.bestPoint = s.bestPoint ∧ halt.bestCost = s.bestCost := by
  cases h <;> exact ⟨rfl, rfl⟩

/-! ### The trail of a descent -/

/-- **A descent with a result has a trail**: it ends at the last iterate, with as many iterations
left as the cap exceeds the length of the trail. -/
theorem exists_trail_of_unfolds_descend {probes : Probes n} {halt : Halt n}
    (h : (descend criteria allowance start).Unfolds probes (some (.ok halt))) :
    ∃ earlier last events final left, Trail criteria allowance start earlier last events ∧
      Ends criteria allowance last left final (.ok halt) ∧ probes = events ++ final ∧
      criteria.cap = earlier.length + left := by
  rcases unfolds_descend h with ⟨_, _, hr⟩ | ⟨_, _, hr⟩ | ⟨cost, gradient, rest, rfl, hiterate⟩
  · cases hr
  · cases hr
  · obtain ⟨chain, left, last, final, hchain, hends, rfl⟩ :=
      exists_descends_of_unfolds_iterate hiterate
    obtain ⟨later, htrail, hcap⟩ := (Trail.initial cost gradient).append_descends hchain
    exact ⟨later, last, _, final, left, by simpa using htrail, hends, by simp, hcap⟩

end MarkovLogic.QuasiNewton
