/-
**What a maximisation records.**

Evaluations write nothing, and neither does the search that asks for them.  What a maximisation
records is the preview of its start and a failure that its descent has survived, both at the most
talkative level.

Main results:

* `records_evaluate`, `records_mediate_of_heeds` — evaluations and searches write nothing;
* `records_maximize` — **a maximisation writes records of the most talkative level alone**.
-/
import MarkovLogic.Proofs.Dialogue.Records
import MarkovLogic.Proofs.Solver.Report

set_option autoImplicit false

namespace MarkovLogic

open QuasiNewton

variable {n : Nat}

/-! ### Evaluations -/

section Evaluations

variable {kind : LogRecord → Prop}

theorem records_costAt (purpose : Purpose) (x : Vector Float n) (memory : FirstFailure Float) :
    (costAt purpose x memory).Records kind := by
  refine Dialogue.records_ask fun answer => ?_
  cases answer with
  | error error => exact Dialogue.records_done _
  | ok v => exact Dialogue.records_done _

theorem records_costsAt (xs : List (Vector Float n)) (memory : FirstFailure Float) :
    (costsAt xs memory).Records kind := by
  induction xs generalizing memory with
  | nil => exact Dialogue.records_done _
  | cons x xs ih =>
      refine Dialogue.records_bind (records_costAt .difference x memory) fun found => ?_
      exact Dialogue.records_bind (ih found.2) fun found => Dialogue.records_done _

theorem records_forwardGradient (h : Float) (x : Vector Float n) (memory : FirstFailure Float) :
    (forwardGradient h x memory).Records kind := by
  refine Dialogue.records_bind (records_costsAt _ memory) fun found => ?_
  dsimp only
  split <;> exact Dialogue.records_done _

theorem records_differenceGradient (h : Float) (x : Vector Float n)
    (memory : FirstFailure Float) : (differenceGradient h x memory).Records kind := by
  refine Dialogue.records_bind (records_costsAt _ memory) fun found => ?_
  dsimp only
  split
  · exact records_forwardGradient h x found.2
  · split
    · exact records_forwardGradient h x found.2
    · exact Dialogue.records_done _

theorem records_gradientAt (h : Float) (x : Vector Float n) (memory : FirstFailure Float) :
    (gradientAt h x memory).Records kind := by
  refine Dialogue.records_ask fun answer => ?_
  split
  · exact Dialogue.records_done _
  · exact records_differenceGradient h x memory
  · exact Dialogue.records_done _

/-- An evaluation writes nothing. -/
theorem records_evaluate (memory : FirstFailure Float) (probe : Probe Float n) :
    (evaluate differenceStep memory probe).Records kind := by
  cases probe with
  | cost x => exact records_costAt .cost x memory
  | gradient x => exact records_gradientAt differenceStep x memory

/-- An evaluation in front of a search writes nothing: its error ends the search at once, and what
it finds is followed by the rest. -/
theorem records_evaluation_bind {α γ : Type}
    {d : Consultation Float n (Except (OptimizationError Float) γ × FirstFailure Float)}
    {next : Except (OptimizationError Float) γ → Search Float n α}
    {ends : OptimizationError Float → α → Prop} (hd : d.Records kind)
    (failed : ∀ error, ∃ a, next (.error error) = .done a ∧ ends error a)
    (found : ∀ v memory,
      ((next (.ok v)).mediate (evaluate differenceStep) memory).Records kind) :
    (d >>= fun (r, memory) => (next r).mediate (evaluate differenceStep) memory).Records kind := by
  refine Dialogue.records_bind hd ?_
  rintro ⟨r, memory⟩
  cases r with
  | ok v => exact found v memory
  | error error =>
      obtain ⟨a, hnext, -⟩ := failed error
      dsimp only
      rw [hnext]
      exact Dialogue.records_done _

/-- A search that heeds failed probes writes nothing. -/
theorem records_mediate_of_heeds {α : Type} {final : α → Prop}
    {ends : OptimizationError Float → α → Prop} {d : Search Float n α}
    (hd : Search.Heeds final ends d) (memory : FirstFailure Float) :
    (d.mediate (evaluate differenceStep) memory).Records kind := by
  induction hd generalizing memory with
  | done _ => exact Dialogue.records_done _
  | unfinished => exact Dialogue.records_unfinished
  | @cost x next failed _ ih =>
      exact records_evaluation_bind (records_evaluate memory (.cost x)) failed ih
  | @gradient x next failed _ ih =>
      exact records_evaluation_bind (records_evaluate memory (.gradient x)) failed ih

end Evaluations

/-! ### Maximisations -/

/-- A record of the most talkative level. -/
def LogRecord.IsDebug (record : LogRecord) : Prop := record.level = .debug

theorem records_previewStart (start : Vector Float n) (memory : FirstFailure Float) :
    (previewStart start memory).Records LogRecord.IsDebug := by
  refine Dialogue.records_bind (records_costAt .cost start memory) fun found => ?_
  obtain ⟨cost, memory⟩ := found
  cases cost with
  | error error => exact Dialogue.records_done _
  | ok cost =>
      refine Dialogue.records_bind (records_gradientAt differenceStep start memory) fun found => ?_
      exact Dialogue.records_bind (Dialogue.records_log .debug rfl) fun _ => Dialogue.records_done _

theorem records_observedDescent (level : LogLevel) (criteria : Criteria) (allowance : Nat)
    (start : Vector Float n) :
    (observedDescent level criteria allowance start).Records LogRecord.IsDebug := by
  have hdescent : ∀ memory, ((descend criteria allowance start).mediate
      (evaluate differenceStep) memory).Records LogRecord.IsDebug :=
    records_mediate_of_heeds (heeds_descend criteria allowance start)
  unfold observedDescent
  split
  · refine Dialogue.records_bind (records_previewStart start none) fun found => ?_
    obtain ⟨previewed, memory⟩ := found
    cases previewed with
    | error error => exact Dialogue.records_done _
    | ok _ => exact hdescent memory
  · exact hdescent none

theorem records_conclude (level : LogLevel)
    (ended : Except (OptimizationError Float) (Halt n) × FirstFailure Float) :
    (MarkovLogic.conclude level ended).Records LogRecord.IsDebug := by
  unfold MarkovLogic.conclude
  split
  · exact Dialogue.records_bind (Dialogue.records_log level rfl) fun _ => Dialogue.records_done _
  · exact Dialogue.records_done _

/-- **A maximisation writes records of the most talkative level alone.** -/
theorem records_maximize (level : LogLevel) (settings : Settings) (allowance : Nat)
    (start : Vector Float n) :
    (maximize level settings allowance start).Records LogRecord.IsDebug := by
  by_cases hbuilt : ∃ criteria, checkStart start.toArray = .ok () ∧
      settings.criteria n = .ok criteria
  · obtain ⟨criteria, hstart, hcriteria⟩ := hbuilt
    rw [maximize_eq hstart hcriteria]
    exact Dialogue.records_bind (records_observedDescent level criteria allowance start)
      (records_conclude level)
  · obtain ⟨error, hdone⟩ := maximize_of_refused level allowance
      fun criteria hstart hcriteria => hbuilt ⟨criteria, hstart, hcriteria⟩
    rw [hdone]
    exact Dialogue.records_done _

end MarkovLogic
