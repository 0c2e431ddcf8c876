/-
**The courses of a learning run.**

A run that can begin writes records, maximises, and writes records again; only the maximisation
asks anything, and its end alone decides what the run leaves behind.  A maximisation over the free
weights is one over reduced vectors whose questions are put about expanded ones.  This module says
so once, for every course and for every run, so that no later proof opens a run again.

Main definitions:

* `Learner.conclude` — what a run leaves behind, from the end of its maximisation;
* `learnedFrom` — the end of a learner's maximisation, from an outcome.

Main results:

* `Learner.unfolds_run` — **the courses of a run**;
* `Learner.result_run_of_prepare` — **the result of a run** whose preparation succeeds;
* `unfolds_optimize`, `result_run_optimize` — the same for its maximisation;
* `Partition.point_liftQuestion`, `Partition.liftAnswer_gradient_of_size` — what its questions and
  answers become.
-/
import MarkovLogic.Learner.Run
import MarkovLogic.Proofs.Dialogue.Course
import MarkovLogic.Proofs.Dialogue.Run
import MarkovLogic.Proofs.Success
import MarkovLogic.Proofs.Weights.Slots

set_option autoImplicit false

namespace MarkovLogic

/-! ### Records -/

section Records

variable {Q : Type} {A : Q → Type} {β σ : Type}

/-- In front of a dialogue records leave its courses as they are. -/
theorem Dialogue.unfolds_logAll_bind {limit : LogLevel} {records : List LogRecord}
    {f : Unit → Dialogue Q A β} {events : List (Event Q A)} {result : Option β}
    (h : (Dialogue.logAll limit records >>= f).Unfolds events result) :
    ∃ notes after, Silent notes ∧ (f ()).Unfolds after result ∧ events = notes ++ after := by
  induction records generalizing events with
  | nil => exact ⟨[], events, silent_nil, h, rfl⟩
  | cons record rest ih =>
      rw [Dialogue.logAll, Dialogue.bind_assoc] at h
      obtain ⟨first, after, hfirst, hrest, rfl⟩ := Dialogue.unfolds_log_bind h
      obtain ⟨notes, last, hnotes, hf, rfl⟩ := ih hrest
      exact ⟨first ++ notes, last, hfirst.append hnotes, hf, (List.append_assoc ..).symm⟩

/-- Records in front of a dialogue do not show in the result. -/
theorem Dialogue.result_run_logAll_bind (respond : σ → (q : Q) → A q × σ) (limit : LogLevel)
    (records : List LogRecord) (f : Unit → Dialogue Q A β) (s : σ) :
    ((Dialogue.logAll limit records >>= f).run respond s).result =
      ((f ()).run respond s).result := by
  induction records with
  | nil => rfl
  | cons record rest ih =>
      rw [Dialogue.logAll, Dialogue.bind_assoc, Dialogue.result_run_log_bind, ih]

end Records

variable {n : Nat} {σ : Type}

/-! ### The preparation of a run -/

/-- A preparation that succeeds has read the start, derived the fixed weights and split the start by
them. -/
theorem exists_of_prepare {net : Network Float} {mode : EvidenceMode} {options : LearnOptions}
    {p : Preparation net.formulaCount} (h : prepare net mode options = .ok p) :
    ∃ start fixed, startingWeights net options = .ok start ∧ net.fixedWeights mode = .ok fixed ∧
      Partition.ofFixed net.formulaCount fixed = .ok p.partition ∧
      p = ⟨p.partition, p.partition.reduce start, options⟩ := by
  obtain ⟨start, hstart, h⟩ := bind_eq_ok_iff.1 h
  obtain ⟨partition, hpartition, h⟩ := bind_eq_ok_iff.1 h
  obtain ⟨fixed, hfixed, hpartition⟩ := bind_eq_ok_iff.1 hpartition
  cases h
  exact ⟨start, fixed, hstart, hfixed, hpartition, rfl⟩

/-- A preparation succeeds if there is a start and a partition. -/
theorem prepare_eq_ok {net : Network Float} {mode : EvidenceMode} {options : LearnOptions}
    {start : Vector Float net.formulaCount} {p : Partition Float net.formulaCount}
    (hstart : startingWeights net options = .ok start) (hp : derivePartition net mode = .ok p) :
    prepare net mode options = .ok ⟨p, p.reduce start, options⟩ := by
  rw [prepare, hstart, hp]
  rfl

/-! ### Questions about the free weights -/

/-- A question about the free weights becomes one about an expanded vector. -/
theorem Partition.point_liftQuestion (p : Partition Float n) (q : Consult Float p.freeCount) :
    (p.liftQuestion q).point = p.expand q.point := by
  cases q <;> rfl

/-- A gradient of the right length comes to the maximisation as its free entries. -/
theorem Partition.liftAnswer_gradient_of_size (p : Partition Float n)
    (x : Vector Float p.freeCount) {g : Array Float} (hg : g.size = n) :
    p.liftAnswer (.gradient x) (.ok g) = .ok (p.reduce ⟨g, hg⟩).toArray := by
  change Except.mapError _ (p.reduceGradient (.ok g)) = _
  have hreduce : p.reduce? g = .ok (p.reduce ⟨g, hg⟩) := dif_pos hg
  have hgradient : p.reduceGradient (.ok g) = .ok (p.reduce ⟨g, hg⟩).toArray := by
    change (p.reduce? g >>= fun reduced => .ok reduced.toArray) = _
    rw [hreduce]
    rfl
  rw [hgradient]
  rfl

/-- A gradient of the wrong length comes to the maximisation as an error. -/
theorem Partition.liftAnswer_gradient_of_size_ne (p : Partition Float n)
    (x : Vector Float p.freeCount) {g : Array Float} (hg : g.size ≠ n) :
    p.liftAnswer (.gradient x) (.ok g) = .error (.pointLength n g.size) := by
  change Except.mapError _ (p.reduceGradient (.ok g)) = _
  have hreduce : p.reduce? g = .error (.lengthMismatch .full n g.size) := dif_neg hg
  have hgradient : p.reduceGradient (.ok g) = .error (.lengthMismatch .full n g.size) := by
    change (p.reduce? g >>= fun reduced => .ok reduced.toArray) = _
    rw [hreduce]
    rfl
  rw [hgradient]
  rfl

/-! ### The maximisation of a run -/

/-- The end of a learner's maximisation, from the outcome over the free weights. -/
def learnedFrom {m : Nat} :
    Except (OptimizationError Float) (Outcome m) →
      Except (LearningError Float) (Vector Float m × Diagnostics)
  | .error error => .error (.optimization error)
  | .ok outcome => .ok (outcome.estimate, .ofOutcome outcome)

/-- The end of a learner's maximisation without free weights, from the value of the fixed ones. -/
def learnedAt {m : Nat} (reduced : Vector Float m) :
    Except (OptimizationError Float) Float →
      Except (LearningError Float) (Vector Float m × Diagnostics)
  | .error error => .error (.optimization error)
  | .ok value => .ok (reduced, .nothingFree value)

/-- Without free weights the objective is asked for one value. -/
theorem optimize_of_freeCount_eq_zero (level : LogLevel) (allowance : Nat) (p : Preparation n)
    (h : p.partition.freeCount = 0) :
    optimize level allowance p =
      .ask (.value .cost p.weights) fun answer => .done (learnedAt p.reduced answer) := by
  rw [optimize, if_pos h, Partition.evaluate, Partition.expand?_toArray]
  dsimp only
  rw [Dialogue.ask_bind]
  refine congrArg _ (funext fun answer => ?_)
  cases answer <;> rfl

/-- With free weights the maximisation over them is lifted to all weights. -/
theorem optimize_of_freeCount_ne_zero (level : LogLevel) (allowance : Nat) (p : Preparation n)
    (h : p.partition.freeCount ≠ 0) :
    optimize level allowance p =
      p.partition.lift (maximize level p.options.settings allowance p.reduced) >>= fun o =>
        .done (learnedFrom o) := by
  rw [optimize, if_neg h]
  refine congrArg _ (funext fun o => ?_)
  cases o <;> rfl

/-- A course of a learner's maximisation over free weights: a course of the maximisation, event by
event about expanded vectors. -/
theorem unfolds_optimize_of_freeCount_ne_zero {level : LogLevel} {allowance : Nat}
    {p : Preparation n} (hfree : p.partition.freeCount ≠ 0)
    {events : List (Event (Consult Float n) Consult.Answer)}
    {result : Option (Except (LearningError Float) (Vector Float p.partition.freeCount ×
      Diagnostics))}
    (h : (optimize level allowance p).Unfolds events result) :
    ∃ inner o, (maximize level p.options.settings allowance p.reduced).Unfolds inner o ∧
      List.Forall₂ (Relayed p.partition.liftQuestion p.partition.liftAnswer) inner events ∧
      result = o.map learnedFrom := by
  rw [optimize_of_freeCount_ne_zero level allowance p hfree] at h
  rcases Dialogue.unfolds_bind h with ⟨hl, rfl⟩ | ⟨before, o, after, hl, hd, rfl⟩
  · obtain ⟨inner, hm, hr⟩ := Dialogue.unfolds_relay hl
    exact ⟨inner, none, hm, hr, rfl⟩
  · obtain ⟨inner, hm, hr⟩ := Dialogue.unfolds_relay hl
    obtain ⟨rfl, rfl⟩ := Dialogue.unfolds_done hd
    exact ⟨inner, some o, hm, by simpa using hr, rfl⟩

/-- A course of a learner's maximisation: one value without free weights, else a course of the
maximisation over them. -/
theorem unfolds_optimize {level : LogLevel} {allowance : Nat} {p : Preparation n}
    {events : List (Event (Consult Float n) Consult.Answer)}
    {result : Option (Except (LearningError Float) (Vector Float p.partition.freeCount ×
      Diagnostics))}
    (h : (optimize level allowance p).Unfolds events result) :
    (∃ answer, events = [.answered (.value .cost p.weights) answer] ∧
        result = some (learnedAt p.reduced answer)) ∨
      ∃ inner o, (maximize level p.options.settings allowance p.reduced).Unfolds inner o ∧
        List.Forall₂ (Relayed p.partition.liftQuestion p.partition.liftAnswer) inner events ∧
        result = o.map learnedFrom := by
  by_cases hfree : p.partition.freeCount = 0
  · rw [optimize_of_freeCount_eq_zero level allowance p hfree] at h
    cases h with
    | ask answer rest =>
        obtain ⟨rfl, rfl⟩ := Dialogue.unfolds_done rest
        exact .inl ⟨answer, rfl, rfl⟩
  · exact .inr (unfolds_optimize_of_freeCount_ne_zero hfree h)

/-- The result of a learner's maximisation over free weights. -/
theorem result_run_optimize (respond : σ → (q : Consult Float n) → q.Answer × σ)
    (level : LogLevel) (allowance : Nat) (p : Preparation n) (hfree : p.partition.freeCount ≠ 0)
    (s : σ) :
    ((optimize level allowance p).run respond s).result =
      ((p.partition.lift (maximize level p.options.settings allowance p.reduced)).run
        respond s).result.map learnedFrom := by
  rw [optimize_of_freeCount_ne_zero level allowance p hfree, Dialogue.result_run_bind]
  cases ((p.partition.lift (maximize level p.options.settings allowance p.reduced)).run
    respond s).result <;> rfl

/-! ### The run -/

namespace Learner

/-- What a run leaves behind once its maximisation has ended. -/
def conclude (learner : Learner n) (p : Preparation n) :
    Except (LearningError Float) (Vector Float p.partition.freeCount × Diagnostics) → RunResult n
  | .error error => { learner with preparation := some p }.fail error
  | .ok (reduced, diagnostics) =>
    { learner with preparation := some p }.succeed p reduced diagnostics

/-- A run that leaves learned weights has converged, and keeps them, expanded and reduced. -/
theorem exists_of_conclude_eq_ok {learner after : Learner n} {p : Preparation n}
    {r : Except (LearningError Float) (Vector Float p.partition.freeCount × Diagnostics)}
    {learned : Learned n} (h : learner.conclude p r = (after, .ok learned)) :
    ∃ reduced diagnostics, r = .ok (reduced, diagnostics) ∧
      learned = ⟨p.partition.expand reduced, diagnostics⟩ ∧
      after = ⟨.converged, some { p with reduced := reduced },
        some (p.partition.expand reduced)⟩ := by
  cases r with
  | error e => cases h
  | ok found =>
      obtain ⟨reduced, diagnostics⟩ := found
      cases h
      exact ⟨reduced, diagnostics, rfl, rfl, rfl⟩

/-- A course of a run from its preparation on. -/
theorem unfolds_complete {learner : Learner n} {level : LogLevel} {allowance : Nat}
    {p : Preparation n} {events : List (Event (Consult Float n) Consult.Answer)}
    {result : Option (RunResult n)}
    (h : (learner.complete level allowance p).Unfolds events result) :
    ∃ front body back r, Silent front ∧ Silent back ∧ events = front ++ body ++ back ∧
      (optimize level allowance p).Unfolds body r ∧ result = r.map (learner.conclude p) := by
  obtain ⟨front, rest, hfront, hrest, rfl⟩ := Dialogue.unfolds_log_bind h
  rcases Dialogue.unfolds_bind hrest with ⟨hbody, rfl⟩ | ⟨body, r, after, hbody, hafter, rfl⟩
  · exact ⟨front, rest, [], none, hfront, silent_nil, by simp, hbody, rfl⟩
  · cases r with
    | error error =>
        obtain ⟨rfl, rfl⟩ := Dialogue.unfolds_done hafter
        exact ⟨front, body, [], some (.error error), hfront, silent_nil, by simp, hbody, rfl⟩
    | ok found =>
        obtain ⟨reduced, diagnostics⟩ := found
        obtain ⟨back, last, hback, hlast, rfl⟩ := Dialogue.unfolds_logAll_bind hafter
        obtain ⟨rfl, rfl⟩ := Dialogue.unfolds_done hlast
        exact ⟨front, body, back, some (.ok (reduced, diagnostics)), hfront, hback, by simp, hbody,
          rfl⟩

/-- **The courses of a run.**  Without a backend, or if the preparation fails, nothing is asked.
Otherwise records enclose a course of the maximisation. -/
theorem unfolds_run {net : Network Float} {mode : EvidenceMode} {backend : Backend}
    {level : LogLevel} {allowance : Nat} {options : LearnOptions}
    {learner : Learner net.formulaCount}
    {events : List (Event (Consult Float net.formulaCount) Consult.Answer)}
    {result : Option (RunResult net.formulaCount)}
    (h : (run net mode backend level allowance options learner).Unfolds events result) :
    (∃ error, backend.require = .error error ∧ Silent events ∧
        result = some (learner, .error error)) ∨
      (∃ error, prepare net mode options = .error error ∧ Silent events ∧
        result = some (learner.fail error)) ∨
      ∃ p, prepare net mode options = .ok p ∧ ∃ front body back r,
        Silent front ∧ Silent back ∧ events = front ++ body ++ back ∧
        (optimize level allowance p).Unfolds body r ∧ result = r.map (learner.conclude p) := by
  unfold run at h
  cases hb : backend.require with
  | error error =>
      rw [hb] at h
      obtain ⟨rfl, rfl⟩ := Dialogue.unfolds_done h
      exact .inl ⟨error, rfl, silent_nil, rfl⟩
  | ok _ =>
      rw [hb] at h
      obtain ⟨notes, rest, hnotes, hrest, rfl⟩ := Dialogue.unfolds_logAll_bind h
      refine .inr ?_
      cases hp : prepare net mode options with
      | error error =>
          rw [hp] at hrest
          obtain ⟨rfl, rfl⟩ := Dialogue.unfolds_done hrest
          exact .inl ⟨error, rfl, by simpa using hnotes, rfl⟩
      | ok p =>
          rw [hp] at hrest
          obtain ⟨front, body, back, r, hfront, hback, rfl, hbody, hr⟩ := unfolds_complete hrest
          exact .inr ⟨p, rfl, notes ++ front, body, back, r, hnotes.append hfront, hback,
            by simp, hbody, hr⟩

/-- The result of a run that cannot begin. -/
theorem result_run_of_unprepared {net : Network Float} {mode : EvidenceMode}
    {options : LearnOptions} {error : LearningError Float}
    (hp : prepare net mode options = .error error)
    (respond : σ → (q : Consult Float net.formulaCount) → q.Answer × σ) (level : LogLevel)
    (allowance : Nat) (learner : Learner net.formulaCount) (s : σ) :
    ((run net mode .available level allowance options learner).run respond s).result =
      some (learner.fail error) := by
  unfold run
  rw [Backend.require]
  dsimp only
  rw [Dialogue.result_run_logAll_bind, hp]
  rfl

/-- The result of a run from its preparation on, from that of its maximisation. -/
theorem result_run_complete (respond : σ → (q : Consult Float n) → q.Answer × σ)
    (learner : Learner n) (level : LogLevel) (allowance : Nat) (p : Preparation n) (s : σ) :
    ((learner.complete level allowance p).run respond s).result =
      ((optimize level allowance p).run respond s).result.map (learner.conclude p) := by
  unfold complete
  rw [Dialogue.result_run_log_bind, Dialogue.result_run_bind]
  cases ((optimize level allowance p).run respond s).result with
  | none => rfl
  | some r =>
      cases r with
      | error error => rfl
      | ok found =>
          rw [Option.bind_some, Dialogue.result_run_logAll_bind]
          rfl

/-- **The result of a run whose preparation succeeds**, from that of its maximisation. -/
theorem result_run_of_prepare {net : Network Float} {mode : EvidenceMode} {options : LearnOptions}
    {p : Preparation net.formulaCount} (hp : prepare net mode options = .ok p)
    (respond : σ → (q : Consult Float net.formulaCount) → q.Answer × σ) (level : LogLevel)
    (allowance : Nat) (learner : Learner net.formulaCount) (s : σ) :
    ((run net mode .available level allowance options learner).run respond s).result =
      ((optimize level allowance p).run respond s).result.map (learner.conclude p) := by
  unfold run
  rw [Backend.require]
  dsimp only
  rw [Dialogue.result_run_logAll_bind, hp]
  exact result_run_complete respond learner level allowance p s

end Learner

end MarkovLogic
