/-
**The preview of the start changes nothing.**

At the most talkative level a maximisation evaluates cost and gradient of the start before it
begins, and the evaluations go through the memory that decides over the end of the run: a failure of
the gradient is left out of the record and yet remembered.  If the answers of the objective depend
on the point alone, this changes nothing.  An evaluation finds the same whatever is remembered
before it, and the descent begins with the same two evaluations, so that whatever the preview
remembers would have been remembered anyway.

Main definitions:

* `Objective.Indifferent` — a dialogue that ends alike on an objective whatever is remembered.

Main results:

* `indifferent_costAt`, `indifferent_gradientAt` — **evaluations are indifferent**;
* `result_run_observedDescent` — **a descent ends as it does without a preview**;
* `result_run_maximize_eq` — **a maximisation ends alike at all levels**.
-/
import MarkovLogic.Proofs.Solver.Memoryless

set_option autoImplicit false

namespace MarkovLogic

open QuasiNewton

variable {n : Nat} {α β : Type}

namespace Objective

/-- The result of a sequence, with a respondent that remembers nothing. -/
theorem result_run_bind (o : Objective Float) (d : Consultation Float n α)
    (f : α → Consultation Float n β) :
    ((d >>= f).run o.respond ()).result =
      (d.run o.respond ()).result.bind fun a => ((f a).run o.respond ()).result :=
  Dialogue.result_run_bind o.respond d f ()

/-! ### Indifference to the memory -/

/-- On the objective the dialogue ends with the same result whatever is remembered before it, and
its own first failure is added to the memory; or it is left unfinished whatever is remembered. -/
def Indifferent (o : Objective Float)
    (d : FirstFailure Float → Consultation Float n (α × FirstFailure Float)) : Prop :=
  ∃ r : Option (α × FirstFailure Float), ∀ memory : FirstFailure Float,
    ((d memory).run o.respond ()).result = r.map fun found => (found.1, memory.or found.2)

variable {o : Objective Float}

theorem indifferent_done (a : α) : o.Indifferent (n := n) fun memory => .done (a, memory) := by
  refine ⟨some (a, none), fun memory => ?_⟩
  rw [Option.map_some, Option.or_none]
  rfl

/-- A sequence of indifferent dialogues is indifferent. -/
theorem indifferent_bind {d : FirstFailure Float → Consultation Float n (α × FirstFailure Float)}
    {f : α × FirstFailure Float → Consultation Float n (β × FirstFailure Float)}
    (hd : o.Indifferent d) (hf : ∀ a, o.Indifferent fun memory => f (a, memory)) :
    o.Indifferent fun memory => d memory >>= f := by
  obtain ⟨r, hr⟩ := hd
  cases r with
  | none =>
      refine ⟨none, fun memory => ?_⟩
      rw [Dialogue.result_run_bind, hr]
      rfl
  | some found =>
      obtain ⟨a, failure⟩ := found
      obtain ⟨r', hr'⟩ := hf a
      refine ⟨r'.map fun found => (found.1, failure.or found.2), fun memory => ?_⟩
      have hnext := hr' (memory.or failure)
      rw [Dialogue.result_run_bind, hr, Option.map_some, Option.bind_some]
      rw [Option.map_map]
      simpa only [Function.comp_def, Option.or_assoc] using hnext

theorem indifferent_costAt (purpose : Purpose) (x : Vector Float n) :
    o.Indifferent (costAt purpose x) := by
  cases hvalue : o.value x.toArray with
  | error error =>
      refine ⟨some (.error error, some error), fun memory => ?_⟩
      have hanswer : o.answer (.value purpose x) = .error error := hvalue
      rw [Option.map_some, ← FirstFailure.record_eq_or, costAt, Dialogue.run_ask, respond, hanswer]
      rfl
  | ok v =>
      refine ⟨some (if v.isFinite then .ok (-v) else .error (.nonFiniteCost v), none),
        fun memory => ?_⟩
      have hanswer : o.answer (.value purpose x) = .ok v := hvalue
      rw [Option.map_some, Option.or_none, costAt, Dialogue.run_ask, respond, hanswer]
      rfl

theorem indifferent_costsAt (xs : List (Vector Float n)) : o.Indifferent (costsAt xs) := by
  induction xs with
  | nil => exact indifferent_done []
  | cons x xs ih =>
      refine indifferent_bind (indifferent_costAt .difference x) fun cost => ?_
      exact indifferent_bind ih fun costs => indifferent_done (cost :: costs)

theorem indifferent_forwardGradient (h : Float) (x : Vector Float n) :
    o.Indifferent (forwardGradient h x) := by
  refine indifferent_bind (indifferent_costsAt _) fun results => ?_
  dsimp only
  cases passValues results with
  | error error => exact indifferent_done _
  | ok values => exact indifferent_done _

theorem indifferent_differenceGradient (h : Float) (x : Vector Float n) :
    o.Indifferent (differenceGradient h x) := by
  refine indifferent_bind (indifferent_costsAt _) fun results => ?_
  dsimp only
  cases passValues results with
  | error error => exact indifferent_forwardGradient h x
  | ok values =>
      dsimp only
      cases checkGradient n (centralQuotients h values).toArray with
      | error error => exact indifferent_forwardGradient h x
      | ok g => exact indifferent_done _

theorem indifferent_gradientAt (h : Float) (x : Vector Float n) :
    o.Indifferent (gradientAt h x) := by
  cases hgradient : o.gradient x.toArray with
  | ok g =>
      refine ⟨some ((checkGradient n g).map Arrow.neg, none), fun memory => ?_⟩
      have hanswer : o.answer (.gradient x) = .ok g := hgradient
      rw [Option.map_some, Option.or_none, gradientAt, Dialogue.run_ask, respond, hanswer]
      rfl
  | error error =>
      have hanswer : o.answer (.gradient x) = .error error := hgradient
      by_cases hmissing : error = .gradientNotImplemented
      · -- differences take the place of the gradient, which is no failure
        subst hmissing
        obtain ⟨r, hr⟩ : o.Indifferent (differenceGradient h x) :=
          indifferent_differenceGradient h x
        refine ⟨r, fun memory => ?_⟩
        rw [← hr memory, gradientAt, Dialogue.run_ask, respond, hanswer]
      · refine ⟨some (.error error, some error), fun memory => ?_⟩
        rw [Option.map_some, ← FirstFailure.record_eq_or, gradientAt, Dialogue.run_ask, respond,
          hanswer]
        cases error with
        | gradientNotImplemented => exact absurd rfl hmissing
        | _ => rfl

end Objective

variable {o : Objective Float} {start : Vector Float n}

/-! ### The preview -/

/-- What the preview remembers, the first two evaluations of a descent remember. -/
theorem or_or_absorb (cost gradient : FirstFailure Float) :
    ((cost.or gradient).or cost).or gradient = cost.or gradient := by
  cases cost with
  | some error => rfl
  | none => cases gradient <;> rfl

/-- A descent begins with cost and gradient of the start. -/
theorem mediate_descend (criteria : Criteria) (allowance : Nat) (start : Vector Float n)
    (memory : FirstFailure Float) :
    (descend criteria allowance start).mediate (evaluate differenceStep) memory =
      costAt .cost start memory >>= fun
        | (.error error, memory) => .done (.error error, memory)
        | (.ok cost, memory) => gradientAt differenceStep start memory >>= fun
          | (.error error, memory) => .done (.error error, memory)
          | (.ok gradient, memory) =>
            (iterate criteria allowance criteria.cap (.initial start cost gradient)).mediate
              (evaluate differenceStep) memory := by
  refine congrArg _ (funext fun found => ?_)
  obtain ⟨cost, memory⟩ := found
  cases cost with
  | error error => rfl
  | ok cost =>
      refine congrArg _ (funext fun found => ?_)
      obtain ⟨gradient, memory⟩ := found
      cases gradient <;> rfl

/-- **A descent ends as it does without a preview**, and with the same memory. -/
theorem result_run_observedDescent (o : Objective Float) (level : LogLevel) (criteria : Criteria)
    (allowance : Nat) (start : Vector Float n) :
    ((observedDescent level criteria allowance start).run o.respond ()).result =
      (((descend criteria allowance start).mediate (evaluate differenceStep) none).run
        o.respond ()).result := by
  unfold observedDescent
  split
  · obtain ⟨cost?, hcost⟩ : o.Indifferent (costAt .cost start) :=
      Objective.indifferent_costAt .cost start
    obtain ⟨gradient?, hgradient⟩ : o.Indifferent (gradientAt differenceStep start) :=
      Objective.indifferent_gradientAt differenceStep start
    rw [previewStart, mediate_descend, Dialogue.bind_assoc, o.result_run_bind, o.result_run_bind,
      hcost]
    cases cost? with
    | none => rfl
    | some cost =>
        obtain ⟨cost, failure⟩ := cost
        cases cost with
        | error error => rfl
        | ok cost =>
            -- the cost is there, so that both go on to the gradient
            dsimp only [Option.map_some, Option.bind_some]
            rw [Dialogue.bind_assoc, o.result_run_bind, o.result_run_bind, hgradient]
            cases gradient? with
            | none => rfl
            | some gradient =>
                obtain ⟨gradient, failure'⟩ := gradient
                dsimp only [Option.map_some, Option.bind_some]
                rw [Dialogue.bind_assoc, Dialogue.result_run_log_bind, Dialogue.pure_eq,
                  Dialogue.done_bind]
                dsimp only
                -- behind the preview the descent evaluates the start once more, and finds and
                -- remembers what it would have found and remembered without
                rw [mediate_descend, o.result_run_bind, hcost]
                dsimp only [Option.map_some, Option.bind_some]
                rw [o.result_run_bind, hgradient]
                dsimp only [Option.map_some, Option.bind_some]
                rw [Option.none_or, or_or_absorb]
  · rfl

/-! ### The maximisation -/

/-- A conclusion reports on the descent at all levels. -/
theorem result_run_conclude (o : Objective Float) (level : LogLevel)
    (ended : Except (OptimizationError Float) (Halt n) × FirstFailure Float) :
    ((MarkovLogic.conclude level ended).run o.respond ()).result = some (reported ended) :=
  (unfolds_conclude (Dialogue.unfolds_run o.respond (MarkovLogic.conclude level ended) ())).2

/-- **A maximisation ends alike at all levels** if the objective is memoryless. -/
theorem result_run_maximize_eq (o : Objective Float) (level level' : LogLevel)
    (settings : Settings) (allowance : Nat) (start : Vector Float n) :
    ((maximize level settings allowance start).run o.respond ()).result =
      ((maximize level' settings allowance start).run o.respond ()).result := by
  cases hstart : checkStart start.toArray with
  | error error =>
      rw [maximize, maximize, hstart]
  | ok _ =>
      cases hcriteria : settings.criteria n with
      | error error =>
          rw [maximize, maximize, hstart, hcriteria]
      | ok criteria =>
          rw [maximize_eq hstart hcriteria, maximize_eq hstart hcriteria, o.result_run_bind,
            o.result_run_bind, result_run_observedDescent, result_run_observedDescent]
          simp only [result_run_conclude]

end MarkovLogic
