/-
**Which error a maximisation reports.**

The descent may end with an error of its own, and it may end with a result although the objective
has failed on the way.  An error of its own is reported as it is; a result behind a failure gives
way to the first failure.  So no failure is ever swallowed, but the error that is reported is the
first failure only if the descent has not ended with another one: an evaluation outside the line
searches may fail although an earlier failure was survived, in the preview of the start or in a
difference pass that forward differences made good.

Main definitions:

* `observedDescent`, `conclude`, `reported` — a maximisation up to the end of its descent, what
  follows, and the report that comes of it;
* `Previewed` — what precedes the descent itself;
* `Outlived` — a failure that need not be the end of the descent.

Main results:

* `maximize_eq` — a maximisation is its descent followed by its conclusion;
* `exists_error_of_failure` — **a failure of the objective is never swallowed**;
* `reported_eq_of_failure` — **the report**: the error of the descent, or else the first failure;
* `exists_outlived_of_ne_firstFailure` — another error than the first failure is that of the last
  evaluation, and the first failure belongs to the preview or to a difference pass.
-/
import MarkovLogic.Proofs.Dialogue.Run
import MarkovLogic.Proofs.Solver.LastEvaluation

set_option autoImplicit false

namespace MarkovLogic

variable {n : Nat} {σ : Type}

/-! ### Descent and conclusion -/

/-- The part of a maximisation that consults the objective: the descent, at the most talkative
level after the preview of the start.  It ends with the first failure beside its result. -/
def observedDescent (level : LogLevel) (criteria : Criteria) (allowance : Nat)
    (start : Vector Float n) :
    Consultation Float n
      (Except (OptimizationError Float) (QuasiNewton.Halt n) × FirstFailure Float) :=
  let descent := (QuasiNewton.descend criteria allowance start).mediate (evaluate differenceStep)
  if level = .debug then
    previewStart start none >>= fun
      | (.error error, memory) => .done (.error error, memory)
      | (.ok (), memory) => descent memory
  else descent none

/-- What precedes the descent, with the memory that it leaves: at the most talkative level a preview
of the start, and nothing at any other. -/
inductive Previewed (level : LogLevel) (start : Vector Float n) :
    List (Event (Consult Float n) Consult.Answer) → FirstFailure Float → Prop
  | preview {events : List (Event (Consult Float n) Consult.Answer)}
      {memory : FirstFailure Float} (talkative : level = .debug)
      (course : (previewStart start none).Unfolds events (some (.ok (), memory))) :
      Previewed level start events memory
  | nothing (quiet : level ≠ .debug) : Previewed level start [] none

/-- At other levels nothing precedes the descent. -/
theorem Previewed.eq_nil {level : LogLevel} {start : Vector Float n}
    {events : List (Event (Consult Float n) Consult.Answer)} {memory : FirstFailure Float}
    (h : Previewed level start events memory) (hlevel : level ≠ .debug) : events = [] := by
  cases h with
  | preview talkative _ => exact absurd talkative hlevel
  | nothing _ => rfl

/-- The report on a descent: its own error, else the first failure, else its outcome. -/
def reported : Except (OptimizationError Float) (QuasiNewton.Halt n) × FirstFailure Float →
    Except (OptimizationError Float) (Outcome n)
  | (.error error, _) => .error error
  | (.ok _, some error) => .error error
  | (.ok halt, none) => halt.outcome

/-- What follows a descent: a failure that it has survived is recorded, and the report made. -/
def conclude (level : LogLevel)
    (ended : Except (OptimizationError Float) (QuasiNewton.Halt n) × FirstFailure Float) :
    Consultation Float n (Except (OptimizationError Float) (Outcome n)) :=
  match ended with
  | (.ok _, some error) =>
    Dialogue.log level ⟨.debug, "objective failed during the run: " ++ error.message⟩ >>= fun _ =>
      .done (reported ended)
  | _ => .done (reported ended)

/-- A descent and its outcome, in the two parts. -/
theorem runDescent_eq (level : LogLevel) (criteria : Criteria) (allowance : Nat)
    (start : Vector Float n) (memory : FirstFailure Float) :
    runDescent level criteria allowance start memory =
      (QuasiNewton.descend criteria allowance start).mediate (evaluate differenceStep) memory >>=
        conclude level := by
  refine congrArg _ (funext fun ended => ?_)
  obtain ⟨halt, memory⟩ := ended
  cases halt with
  | error error => rfl
  | ok halt => cases memory <;> rfl

/-- **A maximisation is its descent followed by its conclusion**, if start and tolerances are
accepted. -/
theorem maximize_eq {level : LogLevel} {settings : Settings} {allowance : Nat}
    {start : Vector Float n} {criteria : Criteria} (hstart : checkStart start.toArray = .ok ())
    (hcriteria : settings.criteria n = .ok criteria) :
    maximize level settings allowance start =
      observedDescent level criteria allowance start >>= conclude level := by
  rw [maximize, hstart, hcriteria]
  dsimp only
  unfold observedDescent
  split
  · rw [Dialogue.bind_assoc]
    refine congrArg _ (funext fun previewed => ?_)
    obtain ⟨cost, memory⟩ := previewed
    cases cost with
    | error error => rfl
    | ok _ => exact runDescent_eq level criteria allowance start memory
  · exact runDescent_eq level criteria allowance start none

/-- If start or tolerances are refused, that is reported and nothing is asked. -/
theorem maximize_of_refused (level : LogLevel) (allowance : Nat) {settings : Settings}
    {start : Vector Float n}
    (h : ∀ criteria, checkStart start.toArray = .ok () → settings.criteria n ≠ .ok criteria) :
    ∃ error, maximize level settings allowance start = .done (.error error) := by
  unfold maximize
  cases hs : checkStart start.toArray with
  | error error => exact ⟨error, rfl⟩
  | ok _ =>
      cases hc : settings.criteria n with
      | error error => exact ⟨error, rfl⟩
      | ok criteria => exact absurd hc (h criteria hs)

theorem unfolds_conclude {level : LogLevel}
    {ended : Except (OptimizationError Float) (QuasiNewton.Halt n) × FirstFailure Float}
    {events : List (Event (Consult Float n) Consult.Answer)}
    {result : Option (Except (OptimizationError Float) (Outcome n))}
    (h : (conclude level ended).Unfolds events result) :
    Silent events ∧ result = some (reported ended) := by
  unfold conclude at h
  split at h
  · obtain ⟨notes, after, hnotes, hdone, rfl⟩ := Dialogue.unfolds_log_bind h
    obtain ⟨rfl, rfl⟩ := Dialogue.unfolds_done hdone
    exact ⟨by simpa using hnotes, rfl⟩
  · obtain ⟨rfl, rfl⟩ := Dialogue.unfolds_done h
    exact ⟨silent_nil, rfl⟩

/-! ### No failure is swallowed -/

/-- The descent ends with the first failure of its transcript beside its result. -/
theorem tracks_observedDescent (level : LogLevel) (criteria : Criteria) (allowance : Nat)
    (start : Vector Float n) :
    Tracks none (observedDescent level criteria allowance start) := by
  have hdescent := tracks_mediate (fun memory probe => tracks_evaluate differenceStep memory probe)
    (QuasiNewton.descend criteria allowance start)
  unfold observedDescent
  split
  · refine tracks_bind (tracks_previewStart start none) fun previewed memory => ?_
    cases previewed with
    | error error => exact tracks_done _
    | ok _ => exact hdescent memory
  · exact hdescent none

/-- A maximisation that comes to its end is a descent that ends with the first failure of the whole
transcript beside its result, followed by its conclusion. -/
theorem exists_descent_of_unfolds_maximize {level : LogLevel} {settings : Settings}
    {allowance : Nat} {start : Vector Float n} {criteria : Criteria}
    (hstart : checkStart start.toArray = .ok ()) (hcriteria : settings.criteria n = .ok criteria)
    {events : List (Event (Consult Float n) Consult.Answer)}
    {o : Except (OptimizationError Float) (Outcome n)}
    (h : (maximize level settings allowance start).Unfolds events (some o)) :
    ∃ course halt notes, (observedDescent level criteria allowance start).Unfolds course
        (some (halt, firstFailure? events)) ∧
      (conclude level (halt, firstFailure? events)).Unfolds notes (some o) ∧
      events = course ++ notes := by
  rw [maximize_eq hstart hcriteria] at h
  obtain ⟨course, ⟨halt, memory⟩, notes, hdescent, hconclude, rfl⟩ := Dialogue.unfolds_bind_some h
  have hsilent : Silent notes := (unfolds_conclude hconclude).1
  have hmemory : memory = firstFailure? (course ++ notes) := by
    rw [tracks_observedDescent level criteria allowance start _ _ _ hdescent, Option.none_or,
      firstFailure?_append, hsilent.firstFailure?, Option.or_none]
  rw [← hmemory]
  exact ⟨course, halt, notes, hdescent, hconclude, rfl⟩

/-- The run of a maximisation reports on the run of its descent, which ends with the first failure
beside its result. -/
theorem exists_descent_of_run_maximize (respond : σ → (q : Consult Float n) → q.Answer × σ)
    {level : LogLevel} {settings : Settings} {allowance : Nat} {start : Vector Float n}
    {criteria : Criteria} (hstart : checkStart start.toArray = .ok ())
    (hcriteria : settings.criteria n = .ok criteria) {s : σ}
    {o : Except (OptimizationError Float) (Outcome n)}
    (h : ((maximize level settings allowance start).run respond s).result = some o) :
    ∃ halt, ((observedDescent level criteria allowance start).run respond s).result =
        some (halt,
          firstFailure? ((maximize level settings allowance start).run respond s).transcript) ∧
      o = reported (halt,
        firstFailure? ((maximize level settings allowance start).run respond s).transcript) := by
  rw [maximize_eq hstart hcriteria, Dialogue.run_bind] at h ⊢
  have hdescent :=
    Dialogue.unfolds_run respond (observedDescent level criteria allowance start) s
  cases hended : ((observedDescent level criteria allowance start).run respond s).result with
  | none =>
      rw [Exchange.andThen_result, hended] at h
      cases h
  | some ended =>
      obtain ⟨halt, memory⟩ := ended
      rw [hended] at hdescent
      rw [Exchange.andThen_of_result hended] at h ⊢
      obtain ⟨hsilent, hreport⟩ :=
        unfolds_conclude (Dialogue.unfolds_run respond (conclude level (halt, memory)) _)
      have hmemory := tracks_observedDescent level criteria allowance start _ _ _ hdescent
      rw [Option.none_or] at hmemory
      rw [firstFailure?_append, hsilent.firstFailure?, Option.or_none, ← hmemory]
      exact ⟨halt, rfl, Option.some.inj (h.symm.trans hreport)⟩

/-- The report on a descent behind which there is a failure: the error of the descent, or else the
failure. -/
theorem reported_eq_of_failure
    (halt : Except (OptimizationError Float) (QuasiNewton.Halt n))
    (first : OptimizationError Float) :
    reported (halt, some first) =
      match halt with
      | .error raised => .error raised
      | .ok _ => .error first := by
  cases halt <;> rfl

/-- **A failure of the objective is never swallowed**: whatever course a maximisation takes to its
end, it reports an error if the objective has failed at any time. -/
theorem exists_error_of_failure {level : LogLevel} {settings : Settings} {allowance : Nat}
    {start : Vector Float n} {events : List (Event (Consult Float n) Consult.Answer)}
    {o : Except (OptimizationError Float) (Outcome n)} {first : OptimizationError Float}
    (h : (maximize level settings allowance start).Unfolds events (some o))
    (hfirst : firstFailure? events = some first) : ∃ error, o = .error error := by
  by_cases hbuilt : ∃ criteria, checkStart start.toArray = .ok () ∧
      settings.criteria n = .ok criteria
  · obtain ⟨criteria, hstart, hcriteria⟩ := hbuilt
    obtain ⟨course, halt, notes, -, hconclude, -⟩ :=
      exists_descent_of_unfolds_maximize hstart hcriteria h
    have ho : o = reported (halt, some first) := by
      rw [← hfirst]
      exact Option.some.inj (unfolds_conclude hconclude).2
    rw [ho, reported_eq_of_failure]
    cases halt with
    | error raised => exact ⟨raised, rfl⟩
    | ok halt => exact ⟨first, rfl⟩
  · -- a refused start or tolerance is an error of its own
    obtain ⟨error, hdone⟩ := maximize_of_refused level allowance
      fun criteria hstart hcriteria => hbuilt ⟨criteria, hstart, hcriteria⟩
    rw [hdone] at h
    obtain ⟨-, ho⟩ := Dialogue.unfolds_done h
    exact ⟨error, Option.some.inj ho⟩

/-! ### The error of a descent -/

/-- A failure that need not be the end of the descent: of a value for a difference pass, or of the
gradient in the preview of the start. -/
def Outlived (level : LogLevel) (start : Vector Float n)
    (e : Event (Consult Float n) Consult.Answer) (failure : OptimizationError Float) : Prop :=
  (∃ x, e = .answered (.value .difference x) (.error failure)) ∨
    level = .debug ∧ e = .answered (.gradient start) (.error failure)

/-- A preview ends with the error of the value, and outlives a failure of the gradient. -/
theorem failures_previewStart {start : Vector Float n} {memory memory' : FirstFailure Float}
    {events : List (Event (Consult Float n) Consult.Answer)}
    {r : Except (OptimizationError Float) Unit}
    (h : (previewStart start memory).Unfolds events (some (r, memory'))) :
    (∃ error, r = .error error ∧ FailedEvaluation events error) ∨
      r = .ok () ∧
        ∀ e ∈ events, ∀ failure, e.failure? = some failure → Outlived .debug start e failure := by
  obtain ⟨part, ⟨cost, memory₁⟩, rest, hcost, hrest, rfl⟩ := Dialogue.unfolds_bind_some h
  cases cost with
  | error error =>
      obtain ⟨rfl, hr⟩ := Dialogue.unfolds_done hrest
      cases hr
      rw [List.append_nil]
      exact .inl ⟨error, rfl, .cost hcost⟩
  | ok v =>
      obtain ⟨slope, ⟨gradient, memory₂⟩, after, hgradient, hlog, rfl⟩ :=
        Dialogue.unfolds_bind_some hrest
      -- the record of the start, and the end of the preview
      obtain ⟨notes, last, hnotes, hdone, rfl⟩ := Dialogue.unfolds_log_bind hlog
      obtain ⟨rfl, hr⟩ := Dialogue.unfolds_done hdone
      cases hr
      refine .inr ⟨rfl, fun e he failure hfailure => ?_⟩
      rw [List.append_nil] at he
      rcases List.mem_append.1 he with he | he
      · exact .inl ((honest_costAt _ _ _).survivable hcost e he failure hfailure)
      · rcases List.mem_append.1 he with he | he
        · rcases failures_gradientAt hgradient he hfailure with ⟨rfl, -⟩ | hdifference
          · exact .inr ⟨rfl, rfl⟩
          · exact .inl hdifference
        · obtain ⟨record, rfl⟩ := hnotes e he
          cases hfailure

/-- **The error of a descent is that of its last evaluation**, and whatever failed before it was
outlived. -/
theorem exists_failedEvaluation_observedDescent {level : LogLevel} {criteria : Criteria}
    {allowance : Nat} {start : Vector Float n} {memory : FirstFailure Float}
    {events : List (Event (Consult Float n) Consult.Answer)} {error : OptimizationError Float}
    (h : (observedDescent level criteria allowance start).Unfolds events
      (some (.error error, memory))) :
    ∃ before last, events = before ++ last ∧ FailedEvaluation last error ∧
      ∀ e ∈ before, ∀ failure, e.failure? = some failure → Outlived level start e failure := by
  unfold observedDescent at h
  split at h
  · rename_i hlevel
    subst hlevel
    obtain ⟨preview, ⟨r, memory₁⟩, rest, hpreview, hrest, rfl⟩ := Dialogue.unfolds_bind_some h
    rcases failures_previewStart hpreview with ⟨raised, rfl, hlast⟩ | ⟨rfl, houtlived⟩
    · -- the preview is the last evaluation
      obtain ⟨rfl, hr⟩ := Dialogue.unfolds_done hrest
      cases hr
      exact ⟨[], preview, by simp, hlast, by simp⟩
    · obtain ⟨before, last, rfl, hsurvived, hlast⟩ := exists_failedEvaluation hrest
      refine ⟨preview ++ before, last, (List.append_assoc ..).symm, hlast, ?_⟩
      intro e he failure hfailure
      rcases List.mem_append.1 he with he | he
      · exact houtlived e he failure hfailure
      · exact .inl (hsurvived e he failure hfailure)
  · obtain ⟨before, last, rfl, hsurvived, hlast⟩ := exists_failedEvaluation h
    exact ⟨before, last, rfl, hlast, fun e he failure hfailure =>
      .inl (hsurvived e he failure hfailure)⟩

/-- A maximisation that reports another error than the first failure ends with an evaluation that
has met this error, and has outlived the first failure. -/
theorem exists_outlived_of_ne_firstFailure {level : LogLevel} {settings : Settings}
    {allowance : Nat} {start : Vector Float n} {criteria : Criteria}
    (hstart : checkStart start.toArray = .ok ()) (hcriteria : settings.criteria n = .ok criteria)
    {events : List (Event (Consult Float n) Consult.Answer)}
    {error first : OptimizationError Float}
    (h : (maximize level settings allowance start).Unfolds events (some (.error error)))
    (hfirst : firstFailure? events = some first) (hne : error ≠ first) :
    ∃ before last, events = before ++ last ∧ FailedEvaluation last error ∧
      ∃ e ∈ events, Outlived level start e first := by
  obtain ⟨course, halt, notes, hdescent, hconclude, hevents⟩ :=
    exists_descent_of_unfolds_maximize hstart hcriteria h
  have hreport : Except.error error = reported (halt, some first) := by
    rw [← hfirst]
    exact Option.some.inj (unfolds_conclude hconclude).2
  cases halt with
  | ok halt => exact absurd (Except.error.inj hreport) hne
  | error raised =>
      obtain rfl := Except.error.inj hreport
      -- nothing is recorded behind a descent that ends with an error
      obtain ⟨rfl, -⟩ := Dialogue.unfolds_done hconclude
      rw [List.append_nil] at hevents
      obtain ⟨before, last, hcourse, hlast, houtlived⟩ :=
        exists_failedEvaluation_observedDescent hdescent
      refine ⟨before, last, hevents.trans hcourse, hlast, ?_⟩
      obtain ⟨e, he, hfailure⟩ := List.exists_of_findSome?_eq_some hfirst
      refine ⟨e, he, ?_⟩
      rw [hevents, hcourse] at he
      rcases List.mem_append.1 he with he | he
      · exact houtlived e he first hfailure
      · rcases hlast.failures he hfailure with heq | hdifference
        · exact absurd heq hne
        · exact .inl hdifference

end MarkovLogic
