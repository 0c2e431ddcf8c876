/-
**The remembered failure is the first one.**

A maximisation hands a memory from evaluation to evaluation.  The objective fails in two ways, with
a value or with a gradient that it should have; that it has no gradient at all is no failure.  This
module proves that the memory is exact: behind any part of a maximisation it holds what it held in
front of it or else the first failure of that part, whether the evaluation that met the failure
ended with it, went on to other points, or was repaired by forward differences.

Main definitions:

* `Consult.failure?`, `firstFailure?` — the failure in an answer, and the first one of a transcript;
* `Tracks` — a dialogue with the objective that keeps its memory exact.

Main results:

* `tracks_evaluate` — every evaluation keeps the memory exact;
* `tracks_mediate` — **so does a search whose probes are answered by such evaluations**;
* `tracks_previewStart` — and so does the preview of the start.
-/
import MarkovLogic.Proofs.Dialogue.Course
import MarkovLogic.Solver.Maximize

set_option autoImplicit false

namespace MarkovLogic

variable {R : Type} {n : Nat}

/-! ### Failures of the objective -/

/-- The failure in an answer of the objective.  A missing gradient is none. -/
def Consult.failure? : (q : Consult R n) → q.Answer → Option (OptimizationError R)
  | .value .., .error error => some error
  | .value .., .ok _ => none
  | .gradient _, .error .gradientNotImplemented => none
  | .gradient _, .error error => some error
  | .gradient _, .ok _ => none

/-- The failure in an event of a conversation with the objective. -/
def Event.failure? : Event (Consult R n) Consult.Answer → Option (OptimizationError R)
  | .answered question answer => question.failure? answer
  | .noted _ => none

/-- The first failure of a transcript. -/
def firstFailure? (events : List (Event (Consult R n) Consult.Answer)) :
    Option (OptimizationError R) :=
  events.findSome? Event.failure?

@[simp] theorem firstFailure?_nil :
    firstFailure? ([] : List (Event (Consult R n) Consult.Answer)) = none := rfl

@[simp] theorem firstFailure?_cons (e : Event (Consult R n) Consult.Answer)
    (events : List (Event (Consult R n) Consult.Answer)) :
    firstFailure? (e :: events) = e.failure?.or (firstFailure? events) := by
  cases h : e.failure? <;> simp [firstFailure?, h]

@[simp] theorem firstFailure?_append
    (before after : List (Event (Consult R n) Consult.Answer)) :
    firstFailure? (before ++ after) = (firstFailure? before).or (firstFailure? after) := by
  simp [firstFailure?, List.findSome?_append]

/-- A gradient fails with any error but that there is none. -/
theorem failure?_gradient_error {x : Vector R n} {error : OptimizationError R}
    (h : error = .gradientNotImplemented → False) :
    (Consult.gradient x).failure? (.error error) = some error := by
  cases error with
  | gradientNotImplemented => exact absurd rfl h
  | _ => rfl

/-- Nothing fails in a transcript in which nothing is asked. -/
theorem Silent.firstFailure? {events : List (Event (Consult R n) Consult.Answer)}
    (h : Silent events) : MarkovLogic.firstFailure? events = none := by
  refine List.findSome?_eq_none_iff.2 fun e he => ?_
  obtain ⟨record, rfl⟩ := h e he
  rfl

/-- A transcript has a first failure as soon as one of its events is a failure. -/
theorem firstFailure?_isSome {events : List (Event (Consult R n) Consult.Answer)}
    {e : Event (Consult R n) Consult.Answer} {error : OptimizationError R} (he : e ∈ events)
    (hf : e.failure? = some error) : ∃ first, firstFailure? events = some first := by
  refine Option.isSome_iff_exists.1 (List.findSome?_isSome_iff.2 ⟨e, he, ?_⟩)
  rw [hf, Option.isSome_some]

theorem FirstFailure.record_eq_or (memory : FirstFailure R) (error : OptimizationError R) :
    memory.record error = memory.or (some error) := by
  cases memory <;> rfl

/-! ### Exact memories -/

/-- Whatever course the dialogue takes, it hands on the memory it was given, or else the first
failure of the course. -/
def Tracks {α : Type} (memory : FirstFailure R) (d : Consultation R n (α × FirstFailure R)) :
    Prop :=
  ∀ (events : List (Event (Consult R n) Consult.Answer)) (a : α) (memory' : FirstFailure R),
    d.Unfolds events (some (a, memory')) → memory' = memory.or (firstFailure? events)

variable {α β : Type} {memory : FirstFailure R}

theorem tracks_done (a : α) : Tracks (n := n) memory (.done (a, memory)) := by
  intro events b memory' h
  obtain ⟨rfl, hb⟩ := Dialogue.unfolds_done h
  cases hb
  simp

/-- A question adds the failure in its answer. -/
theorem tracks_ask {q : Consult R n} {next : q.Answer → Consultation R n (α × FirstFailure R)}
    (h : ∀ answer, Tracks (memory.or (q.failure? answer)) (next answer)) :
    Tracks memory (.ask q next) := by
  intro events a memory' hd
  cases hd with
  | ask answer rest => simp [h answer _ _ _ rest, Event.failure?, Option.or_assoc]

theorem tracks_note {record : LogRecord} {d : Consultation R n (α × FirstFailure R)}
    (h : Tracks memory d) : Tracks memory (.note record d) := by
  intro events a memory' hd
  cases hd with
  | note _ rest => simp [h _ _ _ rest, Event.failure?]

theorem tracks_bind {d : Consultation R n (α × FirstFailure R)}
    {f : α × FirstFailure R → Consultation R n (β × FirstFailure R)} (hd : Tracks memory d)
    (hf : ∀ a memory', Tracks memory' (f (a, memory'))) : Tracks memory (d >>= f) := by
  intro events b memory'' h
  obtain ⟨before, ⟨a, memory'⟩, after, hda, hfa, rfl⟩ := Dialogue.unfolds_bind_some h
  rw [hf a memory' _ _ _ hfa, hd _ _ _ hda, firstFailure?_append, Option.or_assoc]

/-! ### Evaluations -/

theorem tracks_costAt [Neg R] [Scalar R] (purpose : Purpose) (x : Vector R n)
    (memory : FirstFailure R) : Tracks memory (costAt purpose x memory) := by
  refine tracks_ask fun answer => ?_
  cases answer with
  | error error =>
      rw [Consult.failure?, ← FirstFailure.record_eq_or]
      exact tracks_done _
  | ok v =>
      rw [Consult.failure?, Option.or_none]
      exact tracks_done _

/-- A pass over a list of points keeps the memory exact, although it does not stop at a failure. -/
theorem tracks_costsAt [Neg R] [Scalar R] (xs : List (Vector R n)) (memory : FirstFailure R) :
    Tracks memory (costsAt xs memory) := by
  induction xs generalizing memory with
  | nil => exact tracks_done _
  | cons x xs ih =>
      refine tracks_bind (tracks_costAt .difference x memory) fun cost memory => ?_
      exact tracks_bind (ih memory) fun costs memory => tracks_done _

section Gradient

variable [Add R] [Sub R] [Div R] [Neg R] [Scalar R]

theorem tracks_forwardGradient (h : R) (x : Vector R n) (memory : FirstFailure R) :
    Tracks memory (forwardGradient h x memory) := by
  refine tracks_bind (tracks_costsAt _ memory) fun results memory => ?_
  dsimp only
  split <;> exact tracks_done _

/-- The failures of a central pass stay remembered when forward differences take its place. -/
theorem tracks_differenceGradient (h : R) (x : Vector R n) (memory : FirstFailure R) :
    Tracks memory (differenceGradient h x memory) := by
  refine tracks_bind (tracks_costsAt _ memory) fun results memory => ?_
  dsimp only
  split
  · -- some value of the central pass failed
    exact tracks_forwardGradient h x memory
  · split
    · -- the values are there, but the quotients are not finite
      exact tracks_forwardGradient h x memory
    · exact tracks_done _

theorem tracks_gradientAt (h : R) (x : Vector R n) (memory : FirstFailure R) :
    Tracks memory (gradientAt h x memory) := by
  refine tracks_ask fun answer => ?_
  split
  · rw [Consult.failure?, Option.or_none]
    exact tracks_done _
  · -- a missing gradient is no failure, so the memory goes on unchanged
    rw [Consult.failure?, Option.or_none]
    exact tracks_differenceGradient h x memory
  · rename_i error hne
    rw [failure?_gradient_error hne, ← FirstFailure.record_eq_or]
    exact tracks_done _

/-- **Every evaluation keeps the memory exact.** -/
theorem tracks_evaluate (h : R) (memory : FirstFailure R) (probe : Probe R n) :
    Tracks memory (evaluate h memory probe) := by
  cases probe with
  | cost x => exact tracks_costAt .cost x memory
  | gradient x => exact tracks_gradientAt h x memory

end Gradient

/-! ### Searches -/

/-- **A search keeps the memory exact if the evaluations that answer its probes do.** -/
theorem tracks_mediate {Q : Type} {A : Q → Type}
    {answer : FirstFailure R → (q : Q) → Consultation R n (A q × FirstFailure R)}
    (hanswer : ∀ memory q, Tracks memory (answer memory q)) (d : Dialogue Q A α)
    (memory : FirstFailure R) : Tracks memory (d.mediate answer memory) := by
  induction d generalizing memory with
  | done a => exact tracks_done a
  | ask question next ih => exact tracks_bind (hanswer memory question) fun a memory => ih a memory
  | note record rest ih => exact tracks_note (ih memory)
  | unfinished =>
      -- an unfinished search hands on no memory
      intro events a memory' h
      cases h

/-- The preview of the start keeps the memory exact, also when it leaves a gradient out. -/
theorem tracks_previewStart (start : Vector Float n) (memory : FirstFailure Float) :
    Tracks memory (previewStart start memory) := by
  refine tracks_bind (tracks_costAt .cost start memory) fun cost memory => ?_
  dsimp only
  split
  · exact tracks_done _
  · refine tracks_bind (tracks_gradientAt differenceStep start memory) fun gradient memory => ?_
    intro events a memory' h
    obtain ⟨notes, after, hnotes, hdone, rfl⟩ := Dialogue.unfolds_log_bind h
    rw [tracks_done _ _ _ _ hdone, firstFailure?_append, hnotes.firstFailure?, Option.none_or]

end MarkovLogic
