/-
**The life of a learner.**

A learner is called again and again, each time with other options and perhaps on a network or an
objective that has changed since.  Three things outlive a call: the phase, what the latest call has
prepared, and the weights of the latest call that succeeded.  A call that ends makes one of four
transitions, and a learner that has lived through any calls is consistent with what they returned.

Main definitions:

* `Call`, `Learner.call` — what a learner is called with, and the run that a call makes;
* `Learner.Transition` — the transitions of a call that ends;
* `Learner.History` — the learners that some calls, one after the other, leave behind;
* `Learner.Consistent` — a learner is what the results of its calls say.

Main results:

* `Learner.transition_of_result` — **a call that ends makes a transition**;
* `Learner.consistent_of_history` — a learner is consistent after any calls;
* `Learner.result_call_eq` — what a call returns does not depend on the learner;
* `Learner.consistent_throughout` — **the life of a learner**.
-/
import MarkovLogic.Proofs.Learner.KeptWeights

set_option autoImplicit false

namespace MarkovLogic

variable {n : Nat} {σ : Type}

/-! ### Calls -/

/-- What a learner of `n` formulas is called with.  The network and the mode of its evidence are
those at the time of the call. -/
structure Call (n : Nat) where
  network : Network Float
  formulaCount_eq : network.formulaCount = n
  mode : EvidenceMode
  level : LogLevel
  allowance : Nat
  options : LearnOptions

namespace Call

/-- The weights that the run of the call starts from. -/
def start : {n : Nat} → Call n → Except (LearningError Float) (Vector Float n)
  | _, ⟨network, rfl, _, _, _, options⟩ => startingWeights network options

/-- The partition that the run of the call derives. -/
def partition : {n : Nat} → Call n → Except (LearningError Float) (Partition Float n)
  | _, ⟨network, rfl, mode, _, _, _⟩ => derivePartition network mode

/-- What the run of the call works on. -/
def prepare : {n : Nat} → Call n → Except (LearningError Float) (Preparation n)
  | _, ⟨network, rfl, mode, _, _, options⟩ => MarkovLogic.prepare network mode options

/-- What a call has prepared: its options, the derived partition, and the start reduced by it. -/
def Prepared (call : Call n) (p : Preparation n) : Prop :=
  p.options = call.options ∧ call.partition = .ok p.partition ∧
    ∃ start, call.start = .ok start ∧ p.reduced = p.partition.reduce start

theorem prepared_of_prepare {call : Call n} {p : Preparation n} (h : call.prepare = .ok p) :
    call.Prepared p := by
  obtain ⟨network, rfl, mode, level, allowance, options⟩ := call
  obtain ⟨start, fixed, hstart, hfixed, hpartition, hp⟩ := exists_of_prepare h
  have hderive : derivePartition network mode = .ok p.partition := by
    rw [derivePartition, hfixed]
    exact hpartition
  refine ⟨by rw [hp], hderive, start, hstart, ?_⟩
  rw [hp]

end Call

namespace Learner

/-- The run that a call makes. -/
def call (backend : Backend) :
    {n : Nat} → Call n → Learner n → Consultation Float n (RunResult n)
  | _, ⟨network, rfl, mode, level, allowance, options⟩, learner =>
    run network mode backend level allowance options learner

/-! ### Transitions -/

/-- The transitions of a call that ends, from the learner before it to the learner and the result
that it leaves. -/
inductive Transition (backend : Backend) (call : Call n) (before : Learner n) :
    Learner n → Except (LearningError Float) (Learned n) → Prop
  /-- There is nothing to maximise with. -/
  | refused {error : LearningError Float} (missing : backend.require = .error error) :
      Transition backend call before before (.error error)
  /-- The run cannot begin. -/
  | unprepared {error : LearningError Float} (available : backend = .available)
      (unprepared : call.prepare = .error error) :
      Transition backend call before { before with phase := .failed } (.error error)
  /-- The run has begun, and its maximisation fails. -/
  | failed {p : Preparation n} {error : LearningError Float} (available : backend = .available)
      (prepared : call.prepare = .ok p) :
      Transition backend call before
        { before with phase := .failed, preparation := some p } (.error error)
  /-- The maximisation finds reduced weights. -/
  | learned {p : Preparation n} {reduced : Vector Float p.partition.freeCount}
      {diagnostics : Diagnostics} (available : backend = .available)
      (prepared : call.prepare = .ok p) :
      Transition backend call before
        ⟨.converged, some { p with reduced := reduced }, some (p.partition.expand reduced)⟩
        (.ok ⟨p.partition.expand reduced, diagnostics⟩)

/-- **A call that ends makes a transition**, whoever answers. -/
theorem transition_of_result {backend : Backend} {call : Call n} {before after : Learner n}
    {respond : σ → (q : Consult Float n) → q.Answer × σ} {s : σ}
    {result : Except (LearningError Float) (Learned n)}
    (h : ((Learner.call backend call before).run respond s).result = some (after, result)) :
    Transition backend call before after result := by
  obtain ⟨network, rfl, mode, level, allowance, options⟩ := call
  cases backend with
  | unavailable =>
      cases h
      exact .refused rfl
  | available =>
      have hcourse := Dialogue.unfolds_run respond
        (run network mode .available level allowance options before) s
      rcases unfolds_run hcourse with ⟨error, hmissing, -, -⟩ | ⟨error, hprepare, -, hr⟩ |
        ⟨p, hprepare, front, body, back, r, -, -, -, -, hr⟩
      · cases hmissing
      · cases hr.symm.trans h
        exact .unprepared rfl hprepare
      · -- the run has begun, and the end of its maximisation decides
        cases r with
        | none => cases hr.symm.trans h
        | some r =>
            cases r with
            | error error =>
                cases hr.symm.trans h
                exact .failed rfl hprepare
            | ok found =>
                cases hr.symm.trans h
                exact .learned rfl hprepare

/-! ### Histories -/

/-- A call that was made, with what it returned. -/
structure Made (n : Nat) where
  call : Call n
  result : Except (LearningError Float) (Learned n)

/-- The learners that calls leave behind, one after the other on a fresh learner in conversation
with one respondent, from its state `s₀` on.  The past is listed from the latest call to the
first. -/
inductive History (backend : Backend) (respond : σ → (q : Consult Float n) → q.Answer × σ)
    (s₀ : σ) : List (Made n) → Learner n → σ → Prop
  | fresh : History backend respond s₀ [] (.fresh n) s₀
  | call {past : List (Made n)} {before after : Learner n} {s : σ} {call : Call n}
      {result : Except (LearningError Float) (Learned n)}
      (earlier : History backend respond s₀ past before s)
      (ended : ((Learner.call backend call before).run respond s).result = some (after, result)) :
      History backend respond s₀ (⟨call, result⟩ :: past) after
        ((Learner.call backend call before).run respond s).state

/-- The phase of a learner with a past. -/
def phaseAfter : List (Made n) → Phase
  | [] => .uninitialized
  | ⟨_, .ok _⟩ :: _ => .converged
  | ⟨_, .error _⟩ :: _ => .failed

/-- The weights of the latest call of a past that succeeded. -/
def weightsAfter : List (Made n) → Option (Vector Float n)
  | [] => none
  | ⟨_, .ok learned⟩ :: _ => some learned.weights
  | ⟨_, .error _⟩ :: past => weightsAfter past

/-- A learner is what the results of its calls say. -/
structure Consistent (backend : Backend) (past : List (Made n)) (learner : Learner n) : Prop where
  /-- Without a backend every call says so and leaves the learner as it was made. -/
  refused : backend = .unavailable → learner = .fresh n ∧
    ∀ made ∈ past, ∃ name hint, made.result = .error (.backendUnavailable name hint)
  phase : backend = .available → learner.phase = phaseAfter past
  weights : learner.weights = weightsAfter past
  /-- A learner that has converged keeps the options of the latest call, and the reduced weights
  that expand to those it has learned. -/
  converged : learner.phase = .converged → ∃ made p, past.head? = some made ∧
    learner.preparation = some p ∧ p.options = made.call.options ∧ learner.weights = some p.weights

theorem consistent_fresh (backend : Backend) : Consistent backend [] (.fresh n) where
  refused := by simp
  phase := fun _ => rfl
  weights := rfl
  converged := by simp [Learner.fresh]

/-- **A transition keeps a learner consistent.** -/
theorem Consistent.transition {backend : Backend} {past : List (Made n)} {before after : Learner n}
    {call : Call n} {result : Except (LearningError Float) (Learned n)}
    (hbefore : Consistent backend past before) (h : Transition backend call before after result) :
    Consistent backend (⟨call, result⟩ :: past) after := by
  cases h with
  | refused missing =>
      cases backend with
      | available => cases missing
      | unavailable =>
          cases missing
          obtain ⟨rfl, hpast⟩ := hbefore.refused rfl
          refine ⟨fun _ => ⟨rfl, ?_⟩, nofun, hbefore.weights, nofun⟩
          exact List.forall_mem_cons.2 ⟨⟨_, _, rfl⟩, hpast⟩
  | unprepared available unprepared =>
      subst available
      exact ⟨nofun, fun _ => rfl, hbefore.weights, nofun⟩
  | failed available prepared =>
      subst available
      exact ⟨nofun, fun _ => rfl, hbefore.weights, nofun⟩
  | learned available prepared =>
      subst available
      obtain ⟨hoptions, -⟩ := Call.prepared_of_prepare prepared
      exact ⟨nofun, fun _ => rfl, rfl, fun _ => ⟨_, _, rfl, rfl, hoptions, rfl⟩⟩

/-- **A learner is consistent after any calls.** -/
theorem consistent_of_history {backend : Backend}
    {respond : σ → (q : Consult Float n) → q.Answer × σ} {s₀ s : σ} {past : List (Made n)}
    {learner : Learner n} (h : History backend respond s₀ past learner s) :
    Consistent backend past learner := by
  induction h with
  | fresh => exact consistent_fresh backend
  | call earlier ended ih => exact ih.transition (transition_of_result ended)

/-! ### Results -/

/-- **What a call returns does not depend on the learner**, and so not on earlier calls, but on what
the respondent remembers of them. -/
theorem result_call_eq (backend : Backend) (call : Call n) (learner learner' : Learner n)
    (respond : σ → (q : Consult Float n) → q.Answer × σ) (s : σ) :
    ((Learner.call backend call learner).run respond s).result.map (·.2) =
      ((Learner.call backend call learner').run respond s).result.map (·.2) := by
  obtain ⟨network, rfl, mode, level, allowance, options⟩ := call
  cases backend with
  | unavailable => rfl
  | available =>
      change ((run network mode .available level allowance options learner).run
          respond s).result.map _ =
        ((run network mode .available level allowance options learner').run respond s).result.map _
      cases hp : MarkovLogic.prepare network mode options with
      | error error =>
          rw [result_run_of_unprepared hp, result_run_of_unprepared hp]
          rfl
      | ok p =>
          rw [result_run_of_prepare hp, result_run_of_prepare hp, Option.map_map, Option.map_map]
          refine congrArg (Option.map · _) (funext fun r => ?_)
          cases r <;> rfl

/-! ### The life of a learner -/

/-- The phase says how the latest call has ended. -/
theorem phaseAfter_cases (past : List (Made n)) :
    phaseAfter past ≠ .initialized ∧ phaseAfter past ≠ .optimizing ∧
      (phaseAfter past = .uninitialized ↔ past = []) ∧
      (phaseAfter past = .converged ↔
        ∃ made learned, past.head? = some made ∧ made.result = .ok learned) ∧
      (phaseAfter past = .failed ↔
        ∃ made error, past.head? = some made ∧ made.result = .error error) := by
  cases past with
  | nil => simp [phaseAfter]
  | cons made past =>
      obtain ⟨call, result⟩ := made
      cases result <;> simp [phaseAfter]

/-- What a failed call has prepared is kept, unless it has prepared nothing. -/
theorem Transition.preparation_of_error {backend : Backend} {call : Call n}
    {before after : Learner n} {error : LearningError Float}
    (h : Transition backend call before after (.error error)) :
    after.weights = before.weights ∧
      (after.preparation = before.preparation ∧
          (backend.require = .error error ∨ call.prepare = .error error) ∨
        ∃ p, call.prepare = .ok p ∧ call.Prepared p ∧ after.preparation = some p) := by
  cases h with
  | refused missing => exact ⟨rfl, .inl ⟨rfl, .inl missing⟩⟩
  | unprepared _ unprepared => exact ⟨rfl, .inl ⟨rfl, .inr unprepared⟩⟩
  | failed _ prepared =>
      exact ⟨rfl, .inr ⟨_, prepared, Call.prepared_of_prepare prepared, rfl⟩⟩

/-- **The life of a learner.**  After any calls a learner without a backend is as it was made and
has returned nothing else than that it has none.  With one, its phase says how the latest call has
ended, its weights are those of the latest call that succeeded, and if it has converged it keeps
the options of the latest call and reduced weights that expand to the ones learned.  A further call
that fails leaves the weights, and leaves the preparation or replaces it by its own; what it returns
is what it would return to a fresh learner. -/
theorem consistent_throughout {backend : Backend}
    {respond : σ → (q : Consult Float n) → q.Answer × σ} {s₀ s : σ} {past : List (Made n)}
    {learner : Learner n} (h : History backend respond s₀ past learner s) :
    (backend = .unavailable → learner.phase = .uninitialized ∧ learner.preparation = none ∧
      learner.weights = none ∧
      ∀ made ∈ past, ∃ name hint, made.result = .error (.backendUnavailable name hint)) ∧
    (backend = .available → learner.phase ≠ .initialized ∧ learner.phase ≠ .optimizing ∧
      (learner.phase = .uninitialized ↔ past = []) ∧
      (learner.phase = .converged ↔
        ∃ made learned, past.head? = some made ∧ made.result = .ok learned) ∧
      (learner.phase = .failed ↔
        ∃ made error, past.head? = some made ∧ made.result = .error error)) ∧
    learner.weights = weightsAfter past ∧
    (learner.phase = .converged → ∃ made p, past.head? = some made ∧
      learner.preparation = some p ∧ p.options = made.call.options ∧
      learner.weights = some (p.partition.expand p.reduced)) ∧
    ∀ call after result,
      ((Learner.call backend call learner).run respond s).result = some (after, result) →
      (∀ error, result = .error error → after.weights = learner.weights ∧
        (after.preparation = learner.preparation ∧
            (backend.require = .error error ∨ call.prepare = .error error) ∨
          ∃ p, call.prepare = .ok p ∧ call.Prepared p ∧ after.preparation = some p)) ∧
      ((Learner.call backend call (.fresh n)).run respond s).result.map (·.2) = some result := by
  have hconsistent := consistent_of_history h
  refine ⟨fun hb => ?_, fun hb => ?_, hconsistent.weights, hconsistent.converged,
    fun call after result hended => ⟨?_, ?_⟩⟩
  · obtain ⟨rfl, hpast⟩ := hconsistent.refused hb
    exact ⟨rfl, rfl, rfl, hpast⟩
  · rw [hconsistent.phase hb]
    exact phaseAfter_cases past
  · rintro error rfl
    exact (transition_of_result hended).preparation_of_error
  · rw [result_call_eq backend call (.fresh n) learner, hended]
    rfl

/-- Two formulas whose weights cannot be read. -/
def unreadable : Network Float where
  formulaCount := 2
  weight i := .error (.unknownFormula i 0)
  fixedFormulas := []
  groundings _ := .ok []

/-- A call that succeeds, and one that cannot begin: the learner has failed and keeps the weights
of the first. -/
theorem consistent_throughout_unreadable :
    ∃ past learner, History .available (n := 2) flat.respond () past learner () ∧
      past.length = 2 ∧ learner.phase = .failed ∧ learner.weights = weightsAfter past ∧
      ∃ w, weightsAfter past = some w := by
  let first : Call 2 := ⟨halfFixed, rfl, .hard, .off, 0, .standard⟩
  let second : Call 2 := ⟨unreadable, rfl, .hard, .off, 0, ⟨true, .standard⟩⟩
  have hfirst : ((Learner.call .available first (.fresh 2)).run flat.respond ()).result.any
      (fun r => r.2.isOk) = true := by
    decide +kernel
  obtain ⟨⟨learner, result⟩, hlearner, hok⟩ := (Option.any_eq_true _ _).1 hfirst
  cases result with
  | error error => cases hok
  | ok learned =>
      have hsecond : ((Learner.call .available second learner).run flat.respond ()).result =
          some (learner.fail (.network (.unknownFormula 0 0))) := rfl
      have hhistory : History .available (n := 2) flat.respond () _ _ () :=
        .call (.call .fresh hlearner) hsecond
      obtain ⟨-, hphase, hweights, -⟩ := consistent_throughout hhistory
      exact ⟨_, _, hhistory, rfl, (hphase rfl).2.2.2.2.2 ⟨_, _, rfl, rfl⟩, hweights, _, rfl⟩

end Learner

end MarkovLogic
