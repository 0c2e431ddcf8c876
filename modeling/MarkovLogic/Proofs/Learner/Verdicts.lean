/-
**The verdict of a run.**

A run over free weights hands on the verdict of its maximisation and the number of iterations, as
they are.  It warns of a verdict that is not convergence, with one record behind the figures, and of
nothing else: what the preparation and the maximisation record is for information, and a run that
fails reports its error without a record.

Main definitions:

* `warnings` — the warnings of a transcript;
* `Learner.warningCount` — how many of them belong to the end of a run.

Main results:

* `Learner.warnings_of_unfolds_run` — **the warnings of a run**;
* `Learner.exists_outcome_of_result_run` — the maximisation of a run that succeeds;
* `Learner.verdict_tells_why_stopped` — **the verdict tells why the search has stopped**, and a run
  hands it on and warns if it is not convergence.
-/
import MarkovLogic.Proofs.Learner.NumericalTrouble
import MarkovLogic.Proofs.Solver.Recording
import MarkovLogic.Proofs.Solver.Stopping

set_option autoImplicit false

namespace MarkovLogic

open QuasiNewton

variable {n : Nat} {σ : Type}

/-! ### Warnings -/

section Warnings

variable {Q : Type} {A : Q → Type} {β : Type}

/-- Of records in front of a dialogue those of a high enough level are written. -/
theorem Dialogue.unfolds_logAll_bind_kept {limit : LogLevel} {records : List LogRecord}
    {f : Unit → Dialogue Q A β} {events : List (Event Q A)} {result : Option β}
    (h : (Dialogue.logAll limit records >>= f).Unfolds events result) :
    ∃ after, (f ()).Unfolds after result ∧ events = keptRecords limit records ++ after := by
  induction records generalizing events with
  | nil => exact ⟨events, h, rfl⟩
  | cons record rest ih =>
      rw [Dialogue.logAll, Dialogue.bind_assoc] at h
      obtain ⟨after, hrest, rfl⟩ := unfolds_log_bind_kept h
      obtain ⟨last, hf, rfl⟩ := ih hrest
      refine ⟨last, hf, ?_⟩
      rw [← List.append_assoc, keptRecords, keptRecords, keptRecords, ← List.map_append,
        ← List.filter_append, List.singleton_append]

/-- The warnings of a transcript. -/
def warnings (events : List (Event Q A)) : List LogRecord :=
  (transcriptLog events).filter fun record => record.level = .warn

@[simp] theorem warnings_append (before after : List (Event Q A)) :
    warnings (before ++ after) = warnings before ++ warnings after := by
  simp [warnings]

/-- Without a record of their level there are no warnings. -/
theorem warnings_eq_nil {events : List (Event Q A)}
    (h : ∀ record ∈ transcriptLog events, record.level ≠ .warn) : warnings events = [] := by
  apply List.filter_eq_nil_iff.2
  intro record hrecord
  simpa using h record hrecord

theorem warnings_keptRecords_eq_nil {limit : LogLevel} {records : List LogRecord}
    (h : ∀ record ∈ records, record.level ≠ .warn) :
    warnings (keptRecords limit records : List (Event Q A)) = [] := by
  apply warnings_eq_nil
  intro record hrecord
  rw [transcriptLog_keptRecords] at hrecord
  exact h record (List.mem_filter.1 hrecord).1

/-- A dialogue that writes records of the most talkative level alone writes no warnings. -/
theorem Dialogue.Records.warnings_eq_nil {α : Type} {d : Dialogue Q A α}
    (hd : d.Records LogRecord.IsDebug) {events : List (Event Q A)} {result : Option α}
    (h : d.Unfolds events result) : warnings events = [] := by
  apply MarkovLogic.warnings_eq_nil
  intro record hrecord
  have hlevel : record.level = .debug := hd events result h record hrecord
  rw [hlevel]
  exact nofun

/-- Behind the figures of a run stands a warning, unless it has converged. -/
theorem warnings_diagnostics (level : LogLevel) (d : Diagnostics) :
    (warnings (keptRecords level d.records : List (Event Q A))).length =
      if level.admits .warn = true ∧ d.verdict.code ≠ 0 then 1 else 0 := by
  rw [warnings, transcriptLog_keptRecords, Diagnostics.records]
  cases d.verdict <;> cases level <;>
    simp [Verdict.isConverged, Verdict.code, LogLevel.admits, LogLevel.rank]

end Warnings

/-! ### The parts of a run -/

/-- A learner's maximisation writes records of the most talkative level alone. -/
theorem records_optimize (level : LogLevel) (allowance : Nat) (p : Preparation n) :
    (optimize level allowance p).Records LogRecord.IsDebug := by
  by_cases hfree : p.partition.freeCount = 0
  · rw [optimize_of_freeCount_eq_zero level allowance p hfree]
    exact Dialogue.records_ask fun answer => Dialogue.records_done _
  · rw [optimize_of_freeCount_ne_zero level allowance p hfree]
    exact Dialogue.records_bind (Dialogue.records_relay (records_maximize _ _ _ _))
      fun o => Dialogue.records_done _

/-- The records of a preparation are no warnings. -/
theorem level_of_mem_prepareRecords {net : Network Float} {mode : EvidenceMode}
    {options : LearnOptions} {record : LogRecord} (h : record ∈ prepareRecords net mode options) :
    record.level = .debug := by
  unfold prepareRecords at h
  split at h
  · cases h
  · obtain ⟨fixed, -, rfl⟩ := List.mem_map.1 h
    rfl

/-! ### The run -/

namespace Learner

/-- How many warnings belong to the end of a run: one if it has learned something without having
converged, and warnings are kept. -/
def warningCount (level : LogLevel) : Option (RunResult n) → Nat
  | some (_, .ok learned) =>
    if level.admits .warn = true ∧ learned.diagnostics.verdict.code ≠ 0 then 1 else 0
  | _ => 0

/-- The warnings of a run from its preparation on. -/
theorem warnings_of_unfolds_complete {learner : Learner n} {level : LogLevel} {allowance : Nat}
    {p : Preparation n} {events : List (Event (Consult Float n) Consult.Answer)}
    {result : Option (RunResult n)}
    (h : (learner.complete level allowance p).Unfolds events result) :
    (warnings events).length = warningCount level result := by
  obtain ⟨rest, hrest, rfl⟩ := Dialogue.unfolds_log_bind_kept h
  have hfront : warnings (keptRecords level [p.record] :
      List (Event (Consult Float n) Consult.Answer)) = [] := by
    refine warnings_keptRecords_eq_nil fun record hrecord => ?_
    obtain rfl := List.mem_singleton.1 hrecord
    exact nofun
  rw [warnings_append, hfront, List.nil_append]
  rcases Dialogue.unfolds_bind hrest with ⟨hbody, rfl⟩ | ⟨body, r, after, hbody, hafter, rfl⟩
  · rw [(records_optimize level allowance p).warnings_eq_nil hbody]
    rfl
  · rw [warnings_append, (records_optimize level allowance p).warnings_eq_nil hbody,
      List.nil_append]
    cases r with
    | error error =>
        obtain ⟨rfl, rfl⟩ := Dialogue.unfolds_done hafter
        rfl
    | ok found =>
        obtain ⟨reduced, diagnostics⟩ := found
        obtain ⟨last, hlast, rfl⟩ := Dialogue.unfolds_logAll_bind_kept hafter
        obtain ⟨rfl, rfl⟩ := Dialogue.unfolds_done hlast
        rw [List.append_nil, warnings_diagnostics]
        rfl

/-- **The warnings of a run**: none, but one if the run succeeds without having converged. -/
theorem warnings_of_unfolds_run {net : Network Float} {mode : EvidenceMode} {backend : Backend}
    {level : LogLevel} {allowance : Nat} {options : LearnOptions}
    {learner : Learner net.formulaCount}
    {events : List (Event (Consult Float net.formulaCount) Consult.Answer)}
    {result : Option (RunResult net.formulaCount)}
    (h : (run net mode backend level allowance options learner).Unfolds events result) :
    (warnings events).length = warningCount level result := by
  unfold run at h
  cases hbackend : backend.require with
  | error error =>
      rw [hbackend] at h
      obtain ⟨rfl, rfl⟩ := Dialogue.unfolds_done h
      rfl
  | ok _ =>
      rw [hbackend] at h
      obtain ⟨rest, hrest, rfl⟩ := Dialogue.unfolds_logAll_bind_kept h
      have hfront : warnings (keptRecords level (prepareRecords net mode options) :
          List (Event (Consult Float net.formulaCount) Consult.Answer)) = [] := by
        refine warnings_keptRecords_eq_nil fun record hrecord => ?_
        rw [level_of_mem_prepareRecords hrecord]
        exact nofun
      rw [warnings_append, hfront, List.nil_append]
      cases hp : prepare net mode options with
      | error error =>
          rw [hp] at hrest
          obtain ⟨rfl, rfl⟩ := Dialogue.unfolds_done hrest
          rfl
      | ok p =>
          rw [hp] at hrest
          exact warnings_of_unfolds_complete hrest

theorem warningCount_le_one (level : LogLevel) (result : Option (RunResult n)) :
    warningCount level result ≤ 1 := by
  unfold warningCount
  split
  · split <;> omega
  · omega

theorem warningCount_eq_one_iff (level : LogLevel) (result : Option (RunResult n)) :
    warningCount level result = 1 ↔ level.admits .warn = true ∧ ∃ after learned,
      result = some (after, .ok learned) ∧ learned.diagnostics.verdict.code ≠ 0 := by
  constructor
  · intro h
    unfold warningCount at h
    split at h
    · rename_i after learned
      split at h
      · rename_i hwarned
        exact ⟨hwarned.1, after, learned, rfl, hwarned.2⟩
      · cases h
    · cases h
  · rintro ⟨hlevel, after, learned, rfl, hverdict⟩
    exact if_pos ⟨hlevel, hverdict⟩

/-- **A run that succeeds hands on the outcome of its maximisation**, if there are free weights. -/
theorem exists_outcome_of_result_run {net : Network Float} {mode : EvidenceMode}
    {backend : Backend} {level : LogLevel} {allowance : Nat} {options : LearnOptions}
    {learner after : Learner net.formulaCount} {learned : Learned net.formulaCount}
    (respond : σ → (q : Consult Float net.formulaCount) → q.Answer × σ) (s : σ)
    (h : ((run net mode backend level allowance options learner).run respond s).result =
      some (after, .ok learned)) :
    ∃ p, prepare net mode options = .ok p ∧ (p.partition.freeCount ≠ 0 → ∃ outcome,
      ((maximize level p.options.settings allowance p.reduced).run
        (Dialogue.hear p.partition.liftQuestion p.partition.liftAnswer respond) s).result =
          some (.ok outcome) ∧
      learned.diagnostics = .ofOutcome outcome) := by
  cases backend with
  | unavailable => cases h
  | available =>
      cases hp : prepare net mode options with
      | error error =>
          rw [result_run_of_unprepared hp] at h
          cases h
      | ok p =>
          refine ⟨p, rfl, fun hfree => ?_⟩
          rw [result_run_of_prepare hp] at h
          obtain ⟨r, hr, hconclude⟩ := Option.map_eq_some_iff.1 h
          obtain ⟨reduced, diagnostics, rfl, rfl, -⟩ := exists_of_conclude_eq_ok hconclude
          rw [result_run_optimize respond level allowance p hfree, Partition.lift,
            (Dialogue.run_relay ..).1] at hr
          obtain ⟨ended, hended, hlearned⟩ := Option.map_eq_some_iff.1 hr
          cases ended with
          | error error => cases hlearned
          | ok outcome =>
              cases hlearned
              exact ⟨outcome, hended, rfl⟩

/-- **The verdict tells why the search has stopped.**  If a maximisation succeeds, whoever answers,
then its transcript is that of a search with a trail of iterates, behind a preview of the start at
the most talkative level and behind nothing at any other, and its outcome tells why the search has
stopped at the last of them: the iterations are at most as many as the cap, the verdict is
convergence if and only if gradient or change of cost are below their tolerance there, and otherwise
it tells whether the cap was reached or another iteration has given up.  The test was met at no
iterate before, and no iterate has reached a target of minus infinity.

A run over free weights hands on iterations and verdict of its maximisation.  It never writes more
than one warning, and writes one if and only if warnings are kept and it succeeds with another
verdict than convergence. -/
theorem verdict_tells_why_stopped :
    (∀ (n : Nat) (σ : Type) (respond : σ → (q : Consult Float n) → q.Answer × σ) (s : σ)
      (level : LogLevel) (settings : Settings) (allowance : Nat) (start : Vector Float n)
      (outcome : Outcome n),
      ((maximize level settings allowance start).run respond s).result = some (.ok outcome) →
      ∃ criteria earlier last probes final memory preview course notes,
        (criteria.gradient = settings.tolerances.gradient.getD rootEpsilon ∧
          criteria.cost = settings.tolerances.cost.getD machineEpsilon ∧
          criteria.cap = settings.tolerances.iterations.getD (200 * max n 1)) ∧
        ((maximize level settings allowance start).run respond s).transcript =
          preview ++ course ++ notes ∧ Silent notes ∧ Previewed level start preview memory ∧
        Mediated (evaluate differenceStep) memory (probes ++ final) course none ∧
        Trail criteria allowance start earlier last probes ∧
        outcome.TellsWhy criteria allowance last final ∧
        (∀ t ∈ earlier, ¬t.Meets criteria) ∧
        ∀ t ∈ earlier ++ [last], ¬t.bestCost ≤ -(1.0 / 0.0)) ∧
    ∀ (σ : Type) (net : Network Float) (mode : EvidenceMode) (backend : Backend)
      (level : LogLevel) (allowance : Nat) (options : LearnOptions)
      (learner : Learner net.formulaCount)
      (respond : σ → (q : Consult Float net.formulaCount) → q.Answer × σ) (s : σ),
      let exchange := (run net mode backend level allowance options learner).run respond s
      (∀ after learned, exchange.result = some (after, .ok learned) →
        ∃ p, prepare net mode options = .ok p ∧ (p.partition.freeCount ≠ 0 → ∃ outcome,
          ((maximize level p.options.settings allowance p.reduced).run
            (Dialogue.hear p.partition.liftQuestion p.partition.liftAnswer respond) s).result =
              some (.ok outcome) ∧
          learned.diagnostics.iterations = outcome.iterations ∧
          learned.diagnostics.verdict = outcome.verdict)) ∧
      (warnings exchange.transcript).length ≤ 1 ∧
      ((warnings exchange.transcript).length = 1 ↔
        level.admits .warn = true ∧ ∃ after learned,
          exchange.result = some (after, .ok learned) ∧
          learned.diagnostics.verdict.code ≠ 0) := by
  constructor
  · intro n σ respond s level settings allowance start outcome h
    obtain ⟨criteria, earlier, last, probes, final, memory, preview, course, notes, hcriteria,
      hstopped⟩ := exists_trail_of_unfolds_maximize (Dialogue.unfolds_of_result_run h)
    exact ⟨criteria, earlier, last, probes, final, memory, preview, course, notes,
      Settings.criteria_of_eq_ok hcriteria, hstopped⟩
  · intro σ net mode backend level allowance options learner respond s exchange
    have hwarnings : (warnings exchange.transcript).length = warningCount level exchange.result :=
      warnings_of_unfolds_run (Dialogue.unfolds_run respond _ s)
    rw [hwarnings]
    refine ⟨fun after learned h => ?_, warningCount_le_one level exchange.result,
      warningCount_eq_one_iff level exchange.result⟩
    obtain ⟨p, hp, houtcome⟩ := exists_outcome_of_result_run respond s h
    refine ⟨p, hp, fun hfree => ?_⟩
    obtain ⟨outcome, hmaximized, hdiagnostics⟩ := houtcome hfree
    rw [hdiagnostics]
    exact ⟨outcome, hmaximized, rfl, rfl⟩

/-- The run over the cliff has stopped early because its first line search has given up, and warns
of it. -/
theorem verdict_tells_why_stopped_cliff :
    (∃ p outcome criteria last final, prepare oneFree .hard .standard = .ok p ∧
      ((maximize .warn p.options.settings 5 p.reduced).run
        (Dialogue.hear p.partition.liftQuestion p.partition.liftAnswer cliff.respond) ()).result =
          some (.ok outcome) ∧
      outcome.verdict = .stoppedEarly ∧
      Iterate.GivesUp criteria 5 (last : Iterate p.partition.freeCount) final) ∧
    (warnings ((run oneFree .hard .available .warn 5 .standard (.fresh 1)).run
      cliff.respond ()).transcript).length = 1 := by
  have hlearned : (((run oneFree .hard .available .warn 5 .standard (.fresh 1)).run
      cliff.respond ()).result.any fun r => r.2.toOption.any fun learned =>
        decide (learned.diagnostics.verdict = .stoppedEarly)) = true := by
    decide +kernel
  have hprepared : ((prepare oneFree .hard .standard).toOption.any fun p =>
      decide (p.partition.freeCount ≠ 0)) = true := by
    decide +kernel
  obtain ⟨after, learned, hresult, hverdict⟩ := exists_learned_of_any hlearned
  obtain ⟨p, hp, hfree⟩ := exists_ok_of_any hprepared
  have hstopped : learned.diagnostics.verdict = .stoppedEarly := of_decide_eq_true hverdict
  obtain ⟨htells, hruns⟩ := verdict_tells_why_stopped
  obtain ⟨hhanded, -, hwarned⟩ :=
    hruns Unit oneFree .hard .available .warn 5 .standard (.fresh 1) cliff.respond ()
  constructor
  · obtain ⟨p', hp', houtcome⟩ := hhanded after learned hresult
    obtain rfl : p = p' := Except.ok.inj (hp.symm.trans hp')
    obtain ⟨outcome, hmaximized, -, hsame⟩ := houtcome (of_decide_eq_true hfree)
    have hearly : outcome.verdict = .stoppedEarly := hsame.symm.trans hstopped
    obtain ⟨criteria, _, last, _, final, _, _, _, _, -, -, -, -, -, -, htold, -, -⟩ :=
      htells _ _ _ _ _ _ _ _ _ hmaximized
    exact ⟨p, outcome, criteria, last, final, hp, hmaximized, hearly,
      htold.stoppedEarly.1 hearly⟩
  · refine hwarned.2 ⟨by decide, after, learned, hresult, ?_⟩
    rw [hstopped]
    exact nofun

end Learner

end MarkovLogic
