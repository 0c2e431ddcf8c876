/-
**The last evaluation of a search.**

A failure of the objective is the error of the evaluation in which it occurs, unless it occurs in a
difference pass, which goes on and may be made good by another one.  A search that heeds failed
probes therefore survives no failures but those of difference passes: any other belongs to its very
last evaluation and is the error of that evaluation.

Main definitions:

* `Differences`, `Survivable` — only difference passes are asked for, or at least only they fail;
* `Honest` — an evaluation whose failures are survivable or else its error;
* `FailedEvaluation` — the transcript of one evaluation that ends with an error;
* `EndsHeeding` — a search that asks nothing after a failed evaluation.

Main results:

* `honest_costAt`, `honest_gradientAt` — evaluations are honest;
* `endsHeeding_mediate` — **how a search ends that heeds failed probes**;
* `exists_failedEvaluation` — the error of a descent is the error of its last evaluation.
-/
import MarkovLogic.Proofs.Solver.FailedProbe
import MarkovLogic.Proofs.Solver.FirstFailure

set_option autoImplicit false

namespace MarkovLogic

variable {R : Type} {n : Nat} {α γ : Type}

/-! ### Failures in difference passes -/

/-- Nothing is asked but values for difference passes. -/
def Differences (events : List (Event (Consult R n) Consult.Answer)) : Prop :=
  ∀ e ∈ events, ∃ x a, e = .answered (.value .difference x) a

/-- Nothing fails but values for difference passes. -/
def Survivable (events : List (Event (Consult R n) Consult.Answer)) : Prop :=
  ∀ e ∈ events, ∀ error, e.failure? = some error →
    ∃ x, e = .answered (.value .difference x) (.error error)

theorem Differences.append {before after : List (Event (Consult R n) Consult.Answer)}
    (hb : Differences before) (ha : Differences after) : Differences (before ++ after) := by
  exact List.forall_mem_append.2 ⟨hb, ha⟩

theorem Differences.survivable {events : List (Event (Consult R n) Consult.Answer)}
    (h : Differences events) : Survivable events := by
  intro e he error herror
  obtain ⟨x, a, rfl⟩ := h e he
  cases a with
  | error error' =>
      obtain rfl := Option.some.inj herror
      exact ⟨x, rfl⟩
  | ok v => cases herror

theorem survivable_nil : Survivable ([] : List (Event (Consult R n) Consult.Answer)) := by
  simp [Survivable]

theorem Survivable.append {before after : List (Event (Consult R n) Consult.Answer)}
    (hb : Survivable before) (ha : Survivable after) : Survivable (before ++ after) := by
  exact List.forall_mem_append.2 ⟨hb, ha⟩

/-- A pass over a list of points asks for values for differences. -/
theorem differences_costsAt [Neg R] [Scalar R] {xs : List (Vector R n)} {memory : FirstFailure R}
    {events : List (Event (Consult R n) Consult.Answer)}
    {result : Option (List (Except (OptimizationError R) R) × FirstFailure R)}
    (h : (costsAt xs memory).Unfolds events result) : Differences events := by
  induction xs generalizing memory events result with
  | nil =>
      obtain ⟨rfl, -⟩ := Dialogue.unfolds_done h
      simp [Differences]
  | cons x xs ih =>
      have hcost : ∀ events result, (costAt .difference x memory).Unfolds events result →
          Differences events := by
        intro events result hcost
        cases hcost with
        | ask answer rest =>
            intro e he
            cases answer <;> obtain ⟨rfl, -⟩ := Dialogue.unfolds_done rest <;>
              exact ⟨x, _, List.mem_singleton.1 he⟩
      rcases Dialogue.unfolds_bind h with ⟨hc, -⟩ | ⟨before, _, after, hc, hrest, rfl⟩
      · exact hcost _ _ hc
      · refine (hcost _ _ hc).append ?_
        rcases Dialogue.unfolds_bind hrest with ⟨hs, -⟩ | ⟨before, _, after, hs, hdone, rfl⟩
        · exact ih hs
        · obtain ⟨rfl, -⟩ := Dialogue.unfolds_done hdone
          simpa using ih hs

/-! ### Honest evaluations -/

/-- A failure is the error of the evaluation, unless it belongs to a difference pass. -/
def Honest (d : Consultation R n (Except (OptimizationError R) γ × FirstFailure R)) : Prop :=
  ∀ events r memory', d.Unfolds events (some (r, memory')) → ∀ e ∈ events, ∀ error,
    e.failure? = some error →
      r = .error error ∨ ∃ x, e = .answered (.value .difference x) (.error error)

/-- Failures of an honest evaluation that finds something are survivable. -/
theorem Honest.survivable {d : Consultation R n (Except (OptimizationError R) γ × FirstFailure R)}
    (hd : Honest d) {events : List (Event (Consult R n) Consult.Answer)} {found : γ}
    {memory : FirstFailure R} (h : d.Unfolds events (some (.ok found, memory))) :
    Survivable events := by
  intro e he error herror
  rcases hd _ _ _ h e he error herror with hr | hdifference
  · cases hr
  · exact hdifference

theorem honest_costAt [Neg R] [Scalar R] (purpose : Purpose) (x : Vector R n)
    (memory : FirstFailure R) : Honest (costAt purpose x memory) := by
  intro events r memory' h e he error herror
  cases h with
  | ask answer rest =>
      cases answer with
      | error error' =>
          obtain ⟨rfl, hr⟩ := Dialogue.unfolds_done rest
          obtain rfl := List.mem_singleton.1 he
          obtain rfl := Option.some.inj herror
          cases hr
          exact .inl rfl
      | ok v =>
          obtain ⟨rfl, -⟩ := Dialogue.unfolds_done rest
          obtain rfl := List.mem_singleton.1 he
          cases herror

section Gradient

variable [Add R] [Sub R] [Div R] [Neg R] [Scalar R]

theorem differences_forwardGradient {h : R} {x : Vector R n} {memory : FirstFailure R}
    {events : List (Event (Consult R n) Consult.Answer)}
    {result : Option (Except (OptimizationError R) (Vector R n) × FirstFailure R)}
    (hd : (forwardGradient h x memory).Unfolds events result) : Differences events := by
  rcases Dialogue.unfolds_bind hd with ⟨hc, -⟩ | ⟨before, ⟨results, memory'⟩, after, hc, hrest, rfl⟩
  · exact differences_costsAt hc
  · dsimp only at hrest
    split at hrest <;> obtain ⟨rfl, -⟩ := Dialogue.unfolds_done hrest <;>
      simpa using differences_costsAt hc

theorem differences_differenceGradient {h : R} {x : Vector R n} {memory : FirstFailure R}
    {events : List (Event (Consult R n) Consult.Answer)}
    {result : Option (Except (OptimizationError R) (Vector R n) × FirstFailure R)}
    (hd : (differenceGradient h x memory).Unfolds events result) : Differences events := by
  rcases Dialogue.unfolds_bind hd with ⟨hc, -⟩ | ⟨before, ⟨results, memory'⟩, after, hc, hrest, rfl⟩
  · exact differences_costsAt hc
  · -- the central pass, and behind it nothing or a forward pass
    refine (differences_costsAt hc).append ?_
    dsimp only at hrest
    split at hrest
    · exact differences_forwardGradient hrest
    · split at hrest
      · exact differences_forwardGradient hrest
      · obtain ⟨rfl, -⟩ := Dialogue.unfolds_done hrest
        simp [Differences]

/-- What fails in the evaluation of a gradient is the gradient itself, which is then the error, or
a value for a difference pass. -/
theorem failures_gradientAt {h : R} {x : Vector R n} {memory memory' : FirstFailure R}
    {events : List (Event (Consult R n) Consult.Answer)}
    {r : Except (OptimizationError R) (Vector R n)}
    (hd : (gradientAt h x memory).Unfolds events (some (r, memory')))
    {e : Event (Consult R n) Consult.Answer} (he : e ∈ events) {error : OptimizationError R}
    (herror : e.failure? = some error) :
    (e = .answered (.gradient x) (.error error) ∧ r = .error error) ∨
      ∃ y, e = .answered (.value .difference y) (.error error) := by
  cases hd with
  | ask answer rest =>
      dsimp only at rest
      split at rest
      · obtain ⟨rfl, -⟩ := Dialogue.unfolds_done rest
        obtain rfl := List.mem_singleton.1 he
        cases herror
      · -- a missing gradient is no failure; behind it there are difference passes alone
        rcases List.mem_cons.1 he with rfl | he
        · cases herror
        · exact .inr ((differences_differenceGradient rest).survivable e he error herror)
      · rename_i error' hne
        obtain ⟨rfl, hr⟩ := Dialogue.unfolds_done rest
        obtain rfl := List.mem_singleton.1 he
        rw [Event.failure?, failure?_gradient_error hne] at herror
        obtain rfl := Option.some.inj herror
        cases hr
        exact .inl ⟨rfl, rfl⟩

theorem honest_gradientAt (h : R) (x : Vector R n) (memory : FirstFailure R) :
    Honest (gradientAt h x memory) := by
  intro events r memory' hd e he error herror
  exact (failures_gradientAt hd he herror).imp_left And.right

end Gradient

/-! ### The end of a search -/

/-- The transcript of an evaluation that ends with the error. -/
inductive FailedEvaluation (events : List (Event (Consult Float n) Consult.Answer))
    (error : OptimizationError Float) : Prop
  | cost {x : Vector Float n} {memory memory' : FirstFailure Float}
      (course : (costAt .cost x memory).Unfolds events (some (.error error, memory')))
  | gradient {x : Vector Float n} {memory memory' : FirstFailure Float}
      (course : (gradientAt differenceStep x memory).Unfolds events (some (.error error, memory')))

/-- What fails in an evaluation that ends with an error is that error, or a value for a difference
pass. -/
theorem FailedEvaluation.failures {events : List (Event (Consult Float n) Consult.Answer)}
    {error failure : OptimizationError Float} (h : FailedEvaluation events error)
    {e : Event (Consult Float n) Consult.Answer} (he : e ∈ events)
    (hfailure : e.failure? = some failure) :
    error = failure ∨ ∃ x, e = .answered (.value .difference x) (.error failure) := by
  cases h with
  | cost course =>
      exact (honest_costAt _ _ _ _ _ _ course e he failure hfailure).imp_left Except.error.inj
  | gradient course =>
      exact (honest_gradientAt _ _ _ _ _ _ course e he failure hfailure).imp_left Except.error.inj

/-- A search has asked nothing after a failed evaluation: it ends as one that met none, behind
survivable failures alone, or else as the error of its last evaluation makes it end. -/
inductive EndsHeeding (final : α → Prop) (ends : OptimizationError Float → α → Prop)
    (events : List (Event (Consult Float n) Consult.Answer)) (a : α) : Prop
  | found (result : final a) (survived : Survivable events)
  | failed (before last : List (Event (Consult Float n) Consult.Answer))
      (error : OptimizationError Float) (split : events = before ++ last)
      (survived : Survivable before) (evaluation : FailedEvaluation last error)
      (result : ends error a)

section Search

variable {final : α → Prop} {ends : OptimizationError Float → α → Prop} {a : α}

/-- An evaluation in front of a search: its error ends the search, and what it finds is followed
by the rest. -/
theorem endsHeeding_bind
    {d : Consultation Float n (Except (OptimizationError Float) γ × FirstFailure Float)}
    {next : Except (OptimizationError Float) γ → Search Float n α}
    {events : List (Event (Consult Float n) Consult.Answer)} {memory' : FirstFailure Float}
    (honest : Honest d)
    (evaluation : ∀ part error memory, d.Unfolds part (some (.error error, memory)) →
      FailedEvaluation part error)
    (failed : ∀ error, ∃ a, next (.error error) = .done a ∧ ends error a)
    (found : ∀ v memory rest,
      ((next (.ok v)).mediate (evaluate differenceStep) memory).Unfolds rest
        (some (a, memory')) → EndsHeeding final ends rest a)
    (h : (d >>= fun (r, memory) =>
      (next r).mediate (evaluate differenceStep) memory).Unfolds events (some (a, memory'))) :
    EndsHeeding final ends events a := by
  obtain ⟨part, ⟨r, memory⟩, rest, hpart, hrest, rfl⟩ := Dialogue.unfolds_bind_some h
  dsimp only at hrest
  cases r with
  | error error =>
      -- the search ends at once, so this evaluation is its last
      obtain ⟨b, hnext, hends⟩ := failed error
      rw [hnext] at hrest
      obtain ⟨rfl, hb⟩ := Dialogue.unfolds_done hrest
      cases hb
      exact .failed [] part error (by simp) survivable_nil (evaluation _ _ _ hpart) hends
  | ok v =>
      have hsurvived : Survivable part := honest.survivable hpart
      cases found v memory rest hrest with
      | found result survived => exact .found result (hsurvived.append survived)
      | failed before last error split survived evaluation result =>
          rw [split, ← List.append_assoc]
          exact .failed _ last error rfl (hsurvived.append survived) evaluation result

/-- **How a search ends that heeds failed probes**: no failure but those of difference passes
precedes its last evaluation. -/
theorem endsHeeding_mediate {d : Search Float n α} (hd : Search.Heeds final ends d)
    {memory memory' : FirstFailure Float}
    {events : List (Event (Consult Float n) Consult.Answer)}
    (h : (d.mediate (evaluate differenceStep) memory).Unfolds events (some (a, memory'))) :
    EndsHeeding final ends events a := by
  induction hd generalizing memory events with
  | done result =>
      obtain ⟨rfl, hb⟩ := Dialogue.unfolds_done h
      cases hb
      exact .found result survivable_nil
  | unfinished => cases h
  | cost failed _ ih =>
      exact endsHeeding_bind (honest_costAt _ _ _) (fun _ _ _ => .cost) failed
        (fun v _ _ hrest => ih v hrest) h
  | gradient failed _ ih =>
      exact endsHeeding_bind (honest_gradientAt _ _ _) (fun _ _ _ => .gradient) failed
        (fun v _ _ hrest => ih v hrest) h

end Search

/-- The error of a descent is that of its last evaluation, and nothing that failed before was
anything but a value for a difference pass. -/
theorem exists_failedEvaluation {criteria : Criteria} {allowance : Nat} {start : Vector Float n}
    {memory memory' : FirstFailure Float}
    {events : List (Event (Consult Float n) Consult.Answer)} {error : OptimizationError Float}
    (h : ((QuasiNewton.descend criteria allowance start).mediate (evaluate differenceStep)
      memory).Unfolds events (some (.error error, memory'))) :
    ∃ before last, events = before ++ last ∧ Survivable before ∧ FailedEvaluation last error := by
  cases endsHeeding_mediate (QuasiNewton.heeds_descend criteria allowance start) h with
  | found result _ =>
      -- without a failed probe the descent has a result
      obtain ⟨halt, hr⟩ := result
      cases hr
  | failed before last error' split survived evaluation result =>
      rcases result with hr | ⟨halt, hr⟩
      · cases hr
        exact ⟨before, last, split, survived, evaluation⟩
      · cases hr

end MarkovLogic
