/-
**Failures of the objective in a learning run.**

A learner's maximisation hears the objective through the partition: its failures are those of the
objective, and a gradient that has not one entry for each formula is one more.  Whatever fails in a
run, the run fails and keeps the weights it began with.  Which error it reports is the matter of the
maximisation: the first failure, unless the descent has ended with an error of its own.

Main definitions:

* `Consult.learningFailure?` — the failure that a learner sees in an answer of the objective;
* `Exchange.raised?` — the error with which an exchange ends;
* `scripted` — an objective without a gradient, whose values are read off a list.

Main results:

* `failure?_eq_learningFailure?` — what fails for the maximisation is what fails for the learner;
* `Learner.failure_never_swallowed` — **no failure of the objective is swallowed**;
* `Learner.reported_eq_firstFailure_iff` — **when the first failure is the error reported**.
-/
import MarkovLogic.Proofs.Learner.KeptWeights
import MarkovLogic.Proofs.Solver.Report

set_option autoImplicit false

namespace MarkovLogic

variable {n : Nat} {σ τ : Type}

/-! ### What a learner sees fail -/

/-- The failure in an answer about all weights.  A gradient of the wrong length is one. -/
def Consult.learningFailure? : (q : Consult Float n) → q.Answer → Option (OptimizationError Float)
  | .gradient _, .ok g => if g.size = n then none else some (.pointLength n g.size)
  | .gradient x, .error error => (Consult.gradient x).failure? (.error error)
  | .value purpose x, answer => (Consult.value purpose x).failure? answer

/-- The failure in an event of a conversation with the objective of a learner. -/
def Event.learningFailure? :
    Event (Consult Float n) Consult.Answer → Option (OptimizationError Float)
  | .answered question answer => question.learningFailure? answer
  | .noted _ => none

/-- **What fails for the maximisation over the free weights is what fails for the learner.** -/
theorem failure?_eq_learningFailure? {p : Partition Float n}
    {e : Event (Consult Float p.freeCount) Consult.Answer}
    {e' : Event (Consult Float n) Consult.Answer}
    (h : Relayed p.liftQuestion p.liftAnswer e e') : e.failure? = e'.learningFailure? := by
  cases h with
  | noted record => rfl
  | answered q a =>
      cases q with
      | value purpose x => cases a <;> rfl
      | gradient x =>
          cases a with
          | error error => cases error <;> rfl
          | ok g =>
              by_cases hg : g.size = n
              · rw [p.liftAnswer_gradient_of_size x hg]
                exact (if_pos hg).symm
              · rw [p.liftAnswer_gradient_of_size_ne x hg]
                exact (if_neg hg).symm

/-- An objective without a gradient.  Its values are read off a list, and are zero behind it. -/
def scripted : List (Except (OptimizationError Float) Float) → (q : Consult Float n) →
    q.Answer × List (Except (OptimizationError Float) Float)
  | [], .value .. => (.ok 0, [])
  | v :: rest, .value .. => (v, rest)
  | script, .gradient _ => (.error .gradientNotImplemented, script)

/-- The error with which an exchange ends. -/
def Exchange.raised? {Q ε α : Type} {A : Q → Type} (exchange : Exchange Q A σ (Except ε α)) :
    Option ε :=
  exchange.result.bind fun
    | .error error => some error
    | .ok _ => none

theorem Exchange.result_of_raised? {Q ε α : Type} {A : Q → Type}
    {exchange : Exchange Q A σ (Except ε α)} {error : ε} (h : exchange.raised? = some error) :
    exchange.result = some (.error error) := by
  obtain ⟨r, hr, herror⟩ := Option.bind_eq_some_iff.1 h
  cases r with
  | error error' => rw [hr, Option.some.inj herror]
  | ok a => cases herror

/-! ### No failure is swallowed -/

/-- A learner's maximisation ends with an error of the maximisation if anything fails in it. -/
theorem exists_error_of_learningFailure {level : LogLevel} {allowance : Nat} {p : Preparation n}
    {events : List (Event (Consult Float n) Consult.Answer)}
    {r : Except (LearningError Float) (Vector Float p.partition.freeCount × Diagnostics)}
    (h : (optimize level allowance p).Unfolds events (some r))
    {e : Event (Consult Float n) Consult.Answer} (he : e ∈ events)
    {failure : OptimizationError Float} (hfailure : e.learningFailure? = some failure) :
    ∃ error, r = .error (.optimization error) := by
  rcases unfolds_optimize h with ⟨answer, rfl, hr⟩ | ⟨inner, o, hinner, hrelayed, hr⟩
  · -- without free weights the only value is the result
    obtain rfl := List.mem_singleton.1 he
    cases hr
    cases answer with
    | error error => exact ⟨error, rfl⟩
    | ok v => cases hfailure
  · -- the failure is one of the maximisation over the free weights
    obtain ⟨e', he', hrelay⟩ := exists_relayed_of_mem hrelayed he
    rw [← failure?_eq_learningFailure? hrelay] at hfailure
    obtain ⟨first, hfirst⟩ := firstFailure?_isSome he' hfailure
    cases o with
    | none => cases hr
    | some o =>
        cases hr
        obtain ⟨error, rfl⟩ := exists_error_of_failure hinner hfirst
        exact ⟨error, rfl⟩

/-- **No failure of the objective is swallowed.**  Whoever answers, a maximisation that comes to its
end behind a failure reports an error, and a learning run that does so reports an error, has failed,
and keeps the weights it began with. -/
theorem Learner.failure_never_swallowed (level : LogLevel) (allowance : Nat) (settings : Settings)
    (start : Vector Float n) (respond : σ → (q : Consult Float n) → q.Answer × σ) (s : σ)
    (net : Network Float) (mode : EvidenceMode) (backend : Backend) (options : LearnOptions)
    (learner : Learner net.formulaCount)
    (respond' : τ → (q : Consult Float net.formulaCount) → q.Answer × τ) (t : τ) :
    (let exchange := (maximize level settings allowance start).run respond s
      ∀ e ∈ exchange.transcript, ∀ failure, e.failure? = some failure →
        ∀ o, exchange.result = some o → ∃ error, o = .error error) ∧
    (let exchange :=
        (Learner.run net mode backend level allowance options learner).run respond' t
      ∀ e ∈ exchange.transcript, ∀ failure, e.learningFailure? = some failure →
        ∀ after r, exchange.result = some (after, r) →
          (∃ error, r = .error error) ∧ after.phase = .failed ∧
            after.weights = learner.weights) := by
  constructor
  · intro exchange e he failure hfailure o ho
    have hcourse := Dialogue.unfolds_run respond (maximize level settings allowance start) s
    obtain ⟨first, hfirst⟩ := firstFailure?_isSome he hfailure
    exact exists_error_of_failure (ho ▸ hcourse) hfirst
  · intro exchange e he failure hfailure after r hr
    have hcourse := Dialogue.unfolds_run respond'
      (Learner.run net mode backend level allowance options learner) t
    cases e with
    | noted record => cases hfailure
    | answered q a =>
        rcases Learner.unfolds_run hcourse with ⟨error, -, hsilent, -⟩ | ⟨error, -, hsilent, -⟩ |
          ⟨p, -, front, body, back, found, hfront, hback, hevents, hbody, hresult⟩
        · exact absurd he (hsilent.not_mem_answered q a)
        · exact absurd he (hsilent.not_mem_answered q a)
        · have hmem : .answered q a ∈ body := by
            refine mem_of_mem_enclosed hfront hback ?_
            rw [← hevents]
            exact he
          cases found with
          | none => cases hresult.symm.trans hr
          | some found =>
              -- the maximisation has ended, and what follows it keeps the error
              obtain ⟨error, rfl⟩ := exists_error_of_learningFailure hbody hmem hfailure
              cases hresult.symm.trans hr
              exact ⟨⟨_, rfl⟩, rfl, rfl⟩

/-- A failure that forward differences make good still makes a maximisation and a run fail. -/
theorem Learner.failure_never_swallowed_scripted :
    let script := [.ok 0, .error (.objectiveFailed "no value")]
    let exchange := (maximize .off .standard 1 #v[0]).run scripted script
    let learning := (Learner.run halfFixed .hard .available .off 1 .standard (.fresh 2)).run
      scripted script
    (∃ error, exchange.result = some (.error error)) ∧
      ∃ after error, learning.result = some (after, .error error) ∧ after.phase = .failed ∧
        after.weights = none := by
  intro script exchange learning
  obtain ⟨hmaximize, hlearn⟩ := Learner.failure_never_swallowed .off 1 .standard #v[0] scripted
    script halfFixed .hard .available .standard (.fresh 2) scripted script
  have hfailed : exchange.transcript.any (fun e => e.failure?.isSome) = true := by decide +kernel
  have hfailed' : learning.transcript.any (fun e => e.learningFailure?.isSome) = true := by
    decide +kernel
  have hended : exchange.result.isSome = true := by decide +kernel
  have hended' : learning.result.isSome = true := by decide +kernel
  constructor
  · obtain ⟨e, he, hsome⟩ := List.any_eq_true.1 hfailed
    obtain ⟨failure, hfailure⟩ := Option.isSome_iff_exists.1 hsome
    obtain ⟨o, ho⟩ := Option.isSome_iff_exists.1 hended
    obtain ⟨error, rfl⟩ := hmaximize e he failure hfailure o ho
    exact ⟨error, ho⟩
  · obtain ⟨e, he, hsome⟩ := List.any_eq_true.1 hfailed'
    obtain ⟨failure, hfailure⟩ := Option.isSome_iff_exists.1 hsome
    obtain ⟨⟨after, r⟩, hr⟩ := Option.isSome_iff_exists.1 hended'
    obtain ⟨⟨error, rfl⟩, hphase, hweights⟩ := hlearn e he failure hfailure after r hr
    exact ⟨after, error, hr, hphase, hweights⟩

/-! ### Which error is reported -/

/-- **When the first failure is the error reported.**  A maximisation that begins and reports an
error behind a failure reports the first one if and only if its descent has not ended with another
error.  If it has, that is the error of the last evaluation, and the first failure is one that the
descent has outlived.  A learning run reports the error of its maximisation. -/
theorem Learner.reported_eq_firstFailure_iff {level : LogLevel} {allowance : Nat}
    {settings : Settings} {start : Vector Float n} {criteria : Criteria}
    (hstart : checkStart start.toArray = .ok ()) (hcriteria : settings.criteria n = .ok criteria)
    (respond : σ → (q : Consult Float n) → q.Answer × σ) (s : σ)
    {error first : OptimizationError Float}
    (hresult : ((maximize level settings allowance start).run respond s).result =
      some (.error error))
    (hfirst : firstFailure? ((maximize level settings allowance start).run respond s).transcript =
      some first) :
    (error = first ↔ ∀ raised memory,
      ((observedDescent level criteria allowance start).run respond s).result =
        some (.error raised, memory) → raised = first) ∧
    (error ≠ first →
      ∃ before last,
        ((maximize level settings allowance start).run respond s).transcript = before ++ last ∧
        FailedEvaluation last error ∧
        ∃ e ∈ ((maximize level settings allowance start).run respond s).transcript,
          Outlived level start e first) ∧
    ∀ (net : Network Float) (mode : EvidenceMode) (options : LearnOptions)
      (learner : Learner net.formulaCount) (p : Preparation net.formulaCount)
      (respond' : τ → (q : Consult Float net.formulaCount) → q.Answer × τ) (t : τ)
      (raised : OptimizationError Float),
      prepare net mode options = .ok p → p.partition.freeCount ≠ 0 →
      ((p.partition.lift (maximize level options.settings allowance p.reduced)).run
        respond' t).result = some (.error raised) →
      ((Learner.run net mode .available level allowance options learner).run respond' t).result =
        some ({ learner with phase := .failed, preparation := some p },
          .error (.optimization raised)) := by
  have hcourse := Dialogue.unfolds_run respond (maximize level settings allowance start) s
  rw [hresult] at hcourse
  refine ⟨?_, exists_outlived_of_ne_firstFailure hstart hcriteria hcourse hfirst, ?_⟩
  · obtain ⟨halt, hhalt, hreport⟩ := exists_descent_of_run_maximize respond hstart hcriteria hresult
    rw [hfirst] at hhalt hreport
    rw [reported_eq_of_failure] at hreport
    constructor
    · intro heq raised memory hraised
      rw [hhalt] at hraised
      cases hraised
      exact (Except.error.inj hreport).symm.trans heq
    · intro hdescent
      cases halt with
      | error raised => exact (Except.error.inj hreport).trans (hdescent raised _ hhalt)
      | ok halt => exact Except.error.inj hreport
  · intro net mode options learner p respond' t raised hp hfree hraised
    have hoptions : p.options = options := by
      obtain ⟨start, fixed, -, -, -, hp⟩ := exists_of_prepare hp
      rw [hp]
    rw [Learner.result_run_of_prepare hp, result_run_optimize _ _ _ _ hfree, hoptions, hraised]
    rfl

/-- Two failures, of which the first meets a central difference and the second the forward ones. -/
def twoFailures : List (Except (OptimizationError Float) Float) :=
  [.ok 0, .error (.objectiveFailed "first"), .ok 0, .error (.objectiveFailed "second")]

/-- The error reported need not be the first failure. -/
theorem Learner.later_failure_reported :
    let exchange := (maximize .off .standard 1 #v[0]).run scripted twoFailures
    firstFailure? exchange.transcript = some (.objectiveFailed "first") ∧
      exchange.result = some (.error (.objectiveFailed "second")) := by
  intro exchange
  have hraised : exchange.raised? = some (.objectiveFailed "second") := by decide +kernel
  exact ⟨by decide +kernel, exchange.result_of_raised? hraised⟩

/-- The second of two failures ends a maximisation and a run, behind a difference pass that has
outlived the first. -/
theorem Learner.reported_eq_firstFailure_iff_twoFailures :
    let exchange := (maximize .off .standard 1 #v[0]).run scripted twoFailures
    (∃ before last, exchange.transcript = before ++ last ∧
      FailedEvaluation last (.objectiveFailed "second") ∧
      ∃ e ∈ exchange.transcript, Outlived .off #v[0] e (.objectiveFailed "first")) ∧
    ∃ after, ((Learner.run halfFixed .hard .available .off 1 .standard (.fresh 2)).run
      scripted twoFailures).result =
        some (after, .error (.optimization (.objectiveFailed "second"))) := by
  intro exchange
  have hstart : checkStart (#v[(0 : Float)]).toArray = .ok () := by decide +kernel
  have hraised : exchange.raised? = some (.objectiveFailed "second") := by decide +kernel
  have hfirst : firstFailure? exchange.transcript = some (.objectiveFailed "first") := by
    decide +kernel
  have hlearning : (match prepare halfFixed .hard .standard with
      | .error _ => false
      | .ok p => p.partition.freeCount ≠ 0 ∧
        ((p.partition.lift (maximize .off .standard 1 p.reduced)).run
          scripted twoFailures).raised? = some (.objectiveFailed "second")) = true := by
    decide +kernel
  obtain ⟨-, hne, hlearn⟩ := Learner.reported_eq_firstFailure_iff hstart rfl scripted twoFailures
    (exchange.result_of_raised? hraised) hfirst
  refine ⟨hne (by decide), ?_⟩
  cases hp : prepare halfFixed .hard .standard with
  | error error =>
      rw [hp] at hlearning
      cases hlearning
  | ok p =>
      rw [hp] at hlearning
      obtain ⟨hfree, hlift⟩ := of_decide_eq_true hlearning
      exact ⟨_, hlearn halfFixed .hard .standard (.fresh 2) p scripted twoFailures _ hp hfree
        (Exchange.result_of_raised? hlift)⟩

end MarkovLogic
