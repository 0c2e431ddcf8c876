/-
**The iterations of a descent.**

After cost and gradient of the start have been probed, a descent is a chain of iterates.  An
iteration leads from one to the next if the line search finds a point and the gradient is found
there; the chain ends where the test of convergence is met, where no iteration is left, where the
line search gives up, or where the gradient at the new point is refused.  This module says so once,
for every course of a descent, so that a statement about descents is one about a single iteration.

Main definitions:

* `Iterate.initial`, `Iterate.stepping` — the first iterate, and the line search at an iterate;
* `Advances` — an iteration that leads to another iterate;
* `Descends` — a chain of iterations, with the numbers of iterations left in front of it and behind;
* `Ends` — how a descent ends at an iterate.

Main results:

* `ends_or_advances_of_unfolds_iterate` — the courses at an iterate;
* `exists_descends_of_unfolds_iterate` — **the courses of the iterations**;
* `unfolds_descend` — the courses of a descent;
* `Descends.preserves` — what every iteration preserves is kept along a chain;
* `Descends.last` — the last probe of a chain is that of its last gradient.
-/
import MarkovLogic.Proofs.Dialogue.Ensures
import MarkovLogic.Solver.QuasiNewton

set_option autoImplicit false

namespace MarkovLogic.QuasiNewton

variable {n : Nat}

/-- A transcript of the solver. -/
abbrev Probes (n : Nat) : Type := List (Event (Probe Float n) Probe.Answer)

/-! ### Iterates -/

/-- The iterate at the start. -/
def Iterate.initial (start : Vector Float n) (cost : Float) (gradient : Vector Float n) :
    Iterate n where
  point := start
  cost := cost
  costBefore := 1.0 / 0.0
  gradient := gradient
  bestPoint := start
  bestCost := cost
  memory := []
  iteration := 0
  tally := ⟨1, 1⟩

/-- The line search at an iterate, with its probes counted. -/
def Iterate.stepping (criteria : Criteria) (allowance : Nat) (s : Iterate n) :
    Search Float n (Except StepFailure (Vector Float n × Float) × Tally) :=
  (stepAlong criteria allowance ⟨s.point, s.cost, s.gradient, direction s.memory s.gradient⟩).run
    |>.tallied Tally.count Tally.zero

/-- An iteration that leads from one iterate to another: the line search has found a point with its
cost, and the gradient was found there. -/
inductive Advances (criteria : Criteria) (allowance : Nat) (s : Iterate n) :
    Probes n → Iterate n → Prop
  | intro {search : Probes n} {point : Vector Float n} {cost : Float} {probes : Tally}
      (gradient : Vector Float n) (unconverged : s.converged criteria = false)
      (found : (s.stepping criteria allowance).Unfolds search (some (.ok (point, cost), probes))) :
      Advances criteria allowance s (search ++ [.answered (.gradient point) (.ok gradient)])
        (s.advance criteria point cost gradient (probes.add ⟨0, 1⟩))

/-- A chain of iterations, with the number of iterations left in front of it and behind it. -/
inductive Descends (criteria : Criteria) (allowance : Nat) :
    Nat → Iterate n → Probes n → Nat → Iterate n → Prop
  | here (left : Nat) (s : Iterate n) : Descends criteria allowance left s [] left s
  | further {left left' : Nat} {s s' s'' : Iterate n} {front rest : Probes n}
      (first : Advances criteria allowance s front s')
      (others : Descends criteria allowance left s' rest left' s'') :
      Descends criteria allowance (left + 1) s (front ++ rest) left' s''

/-- How a descent ends at an iterate. -/
inductive Ends (criteria : Criteria) (allowance : Nat) (s : Iterate n) :
    Nat → Probes n → Except (OptimizationError Float) (Halt n) → Prop
  | converged {left : Nat} (converged : s.converged criteria = true) :
      Ends criteria allowance s left [] (.ok (s.halt .converged))
  | capReached (unconverged : s.converged criteria = false) :
      Ends criteria allowance s 0 [] (.ok (s.halt .capReached))
  | gaveUp {left : Nat} {search : Probes n} {failure : StepFailure} {probes : Tally}
      (unconverged : s.converged criteria = false)
      (given : (s.stepping criteria allowance).Unfolds search (some (.error failure, probes))) :
      Ends criteria allowance s (left + 1) search (.ok (s.giveUp failure))
  | refused {left : Nat} {search : Probes n} {point : Vector Float n} {cost : Float}
      {probes : Tally} (error : OptimizationError Float)
      (unconverged : s.converged criteria = false)
      (found : (s.stepping criteria allowance).Unfolds search (some (.ok (point, cost), probes))) :
      Ends criteria allowance s (left + 1)
        (search ++ [.answered (.gradient point) (.error error)]) (.error error)

/-! ### Courses -/

variable {criteria : Criteria} {allowance : Nat}

/-- **The courses at an iterate**: the descent ends there, or an iteration leads to another iterate
and the descent goes on from it. -/
theorem ends_or_advances_of_unfolds_iterate {left : Nat} {s : Iterate n} {events : Probes n}
    {r : Except (OptimizationError Float) (Halt n)}
    (h : (iterate criteria allowance left s).Unfolds events (some r)) :
    Ends criteria allowance s left events r ∨
      ∃ left' s' front rest, left = left' + 1 ∧ Advances criteria allowance s front s' ∧
        (iterate criteria allowance left' s').Unfolds rest (some r) ∧ events = front ++ rest := by
  unfold iterate at h
  split at h
  · obtain ⟨rfl, hr⟩ := Dialogue.unfolds_done h
    cases hr
    exact .inl (.converged ‹_›)
  · rename_i hunconverged
    rw [Bool.not_eq_true] at hunconverged
    cases left with
    | zero =>
        obtain ⟨rfl, hr⟩ := Dialogue.unfolds_done h
        cases hr
        exact .inl (.capReached hunconverged)
    | succ left =>
        obtain ⟨search, ⟨step, probes⟩, rest, hsearch, hrest, rfl⟩ := Dialogue.unfolds_bind_some h
        cases step with
        | error failure =>
            obtain ⟨rfl, hr⟩ := Dialogue.unfolds_done hrest
            cases hr
            rw [List.append_nil]
            exact .inl (.gaveUp hunconverged hsearch)
        | ok found =>
            obtain ⟨point, cost⟩ := found
            cases hrest with
            | ask answer hnext =>
                cases answer with
                | error error =>
                    obtain ⟨rfl, hr⟩ := Dialogue.unfolds_done hnext
                    cases hr
                    exact .inl (.refused error hunconverged hsearch)
                | ok gradient =>
                    exact .inr ⟨left, _, _, _, rfl, .intro gradient hunconverged hsearch, hnext,
                      List.append_cons ..⟩

/-- **The courses of the iterations**: a chain of iterations, and an end at its last iterate. -/
theorem exists_descends_of_unfolds_iterate {left : Nat} {s : Iterate n} {events : Probes n}
    {r : Except (OptimizationError Float) (Halt n)}
    (h : (iterate criteria allowance left s).Unfolds events (some r)) :
    ∃ chain left' s' final, Descends criteria allowance left s chain left' s' ∧
      Ends criteria allowance s' left' final r ∧ events = chain ++ final := by
  induction left generalizing s events with
  | zero =>
      rcases ends_or_advances_of_unfolds_iterate h with hends | ⟨_, _, _, _, hleft, -⟩
      · exact ⟨[], 0, s, events, .here 0 s, hends, rfl⟩
      · cases hleft
  | succ left ih =>
      rcases ends_or_advances_of_unfolds_iterate h with
        hends | ⟨_, s₁, front, rest, hleft, hfirst, hrest, rfl⟩
      · exact ⟨[], left + 1, s, events, .here _ s, hends, rfl⟩
      · cases hleft
        obtain ⟨chain, left', s', final, hchain, hends, rfl⟩ := ih hrest
        exact ⟨front ++ chain, left', s', final, .further hfirst hchain, hends,
          (List.append_assoc ..).symm⟩

/-- **The courses of a descent**: cost or gradient of the start are refused, or the iterations begin
there. -/
theorem unfolds_descend {start : Vector Float n} {events : Probes n}
    {r : Except (OptimizationError Float) (Halt n)}
    (h : (descend criteria allowance start).Unfolds events (some r)) :
    (∃ error, .answered (.cost start) (.error error) ∈ events ∧ r = .error error) ∨
    (∃ error, .answered (.gradient start) (.error error) ∈ events ∧ r = .error error) ∨
    ∃ cost gradient rest, events = .answered (.cost start) (.ok cost) ::
        .answered (.gradient start) (.ok gradient) :: rest ∧
      (iterate criteria allowance criteria.cap (.initial start cost gradient)).Unfolds rest
        (some r) := by
  cases h with
  | ask answer h =>
      cases answer with
      | error error =>
          obtain ⟨rfl, hr⟩ := Dialogue.unfolds_done h
          cases hr
          exact .inl ⟨error, List.mem_singleton_self _, rfl⟩
      | ok cost =>
          cases h with
          | ask answer h =>
              cases answer with
              | error error =>
                  obtain ⟨rfl, hr⟩ := Dialogue.unfolds_done h
                  cases hr
                  exact .inr (.inl ⟨error, List.mem_cons_of_mem _ (List.mem_singleton_self _), rfl⟩)
              | ok gradient => exact .inr (.inr ⟨cost, gradient, _, rfl, h⟩)

/-! ### Chains -/

/-- **What every iteration preserves is kept along a chain of them.** -/
theorem Descends.preserves {allowed : (q : Probe Float n) → q.Answer → Prop}
    {inv : Iterate n → Prop}
    (hstep : ∀ s front s', Advances criteria allowance s front s' → Admitted allowed front →
      inv s → inv s')
    {left left' : Nat} {s s' : Iterate n} {events : Probes n}
    (h : Descends criteria allowance left s events left' s') (hadmitted : Admitted allowed events)
    (hs : inv s) : inv s' := by
  induction h with
  | here left s => exact hs
  | further first _ ih =>
      obtain ⟨hfront, hrest⟩ := admitted_append.1 hadmitted
      exact ih hrest (hstep _ _ _ first hfront hs)

/-- **The last probe of a chain is that of its last gradient**, unless the chain is empty. -/
theorem Descends.last {left left' : Nat} {s s' : Iterate n} {events : Probes n}
    (h : Descends criteria allowance left s events left' s') :
    (events = [] ∧ s' = s) ∨
      ∃ before, events = before ++ [.answered (.gradient s'.point) (.ok s'.gradient)] := by
  induction h with
  | here left s => exact .inl ⟨rfl, rfl⟩
  | further first _ ih =>
      refine .inr ?_
      rcases ih with ⟨rfl, rfl⟩ | ⟨before, rfl⟩
      · cases first with
        | intro gradient => exact ⟨_, List.append_nil _⟩
      · exact ⟨_, (List.append_assoc ..).symm⟩

end MarkovLogic.QuasiNewton
