/-
**Counting evaluations.**

A search counts its probes, and each probe is one call of the objective, for a value or for a
gradient; the values that take the place of a missing gradient are asked for besides and belong to
no probe.  So the tally of an iterate is the number of calls up to there.  But the tally of a line
search comes with what it finds, and one that gives up finds nothing: its probes are never added.

Main definitions:

* `callsOf` — the values and gradients asked of an objective, without those of difference passes;
* `probesOf` — the costs and gradients asked by a solver.

Main results:

* `unfolds_tallied` — the tally of a counted search is the number of its probes;
* `Mediated.callsOf_eq` — **an evaluated search makes as many calls as probes**;
* `Trail.tally_eq` — **the tally of an iterate counts the probes up to there**;
* `Ends.tally_eq` — the tally at the end leaves out the last line search, if that has given up;
* `exists_calls_of_unfolds_maximize` — **the calls of a maximisation that succeeds**.
-/
import MarkovLogic.Proofs.Solver.Stopping

set_option autoImplicit false

namespace MarkovLogic

open QuasiNewton

variable {R : Type} {n : Nat} {α : Type}

/-! ### Tallies -/

namespace Tally

@[simp] theorem add_zero (t : Tally) : t.add zero = t := rfl

@[simp] theorem zero_add (t : Tally) : zero.add t = t := by
  simp [add, zero]

theorem add_assoc (r s t : Tally) : (r.add s).add t = r.add (s.add t) := by
  simp [add, Nat.add_assoc]

/-- One probe more is a tally of one probe more. -/
theorem count_eq_add (t : Tally) (q : Probe R n) : t.count q = t.add (zero.count q) := by
  cases q <;> simp [count, add, zero]

end Tally

/-! ### Calls and probes -/

namespace Event

/-- The event asks the objective for a value as a cost. -/
def isCostCall : Event (Consult R n) Consult.Answer → Bool
  | .answered (.value .cost _) _ => true
  | .answered (.value .difference _) _ => false
  | .answered (.gradient _) _ => false
  | .noted _ => false

/-- The event asks the objective for a gradient. -/
def isGradientCall : Event (Consult R n) Consult.Answer → Bool
  | .answered (.value ..) _ => false
  | .answered (.gradient _) _ => true
  | .noted _ => false

/-- The event is a probe of the cost. -/
def isCostProbe : Event (Probe R n) Probe.Answer → Bool
  | .answered (.cost _) _ => true
  | .answered (.gradient _) _ => false
  | .noted _ => false

/-- The event is a probe of the gradient. -/
def isGradientProbe : Event (Probe R n) Probe.Answer → Bool
  | .answered (.cost _) _ => false
  | .answered (.gradient _) _ => true
  | .noted _ => false

end Event

/-- How often an objective is asked for its value, differences apart, and for its gradient. -/
def callsOf (events : List (Event (Consult R n) Consult.Answer)) : Tally :=
  ⟨events.countP Event.isCostCall, events.countP Event.isGradientCall⟩

/-- How often a solver probes the cost and the gradient. -/
def probesOf (events : List (Event (Probe R n) Probe.Answer)) : Tally :=
  ⟨events.countP Event.isCostProbe, events.countP Event.isGradientProbe⟩

@[simp] theorem callsOf_nil :
    callsOf ([] : List (Event (Consult R n) Consult.Answer)) = Tally.zero := rfl

@[simp] theorem callsOf_append (before after : List (Event (Consult R n) Consult.Answer)) :
    callsOf (before ++ after) = (callsOf before).add (callsOf after) := by
  simp [callsOf, Tally.add, List.countP_append]

@[simp] theorem probesOf_nil :
    probesOf ([] : List (Event (Probe R n) Probe.Answer)) = Tally.zero := rfl

@[simp] theorem probesOf_append (before after : List (Event (Probe R n) Probe.Answer)) :
    probesOf (before ++ after) = (probesOf before).add (probesOf after) := by
  simp [probesOf, Tally.add, List.countP_append]

theorem probesOf_cons_answered (q : Probe R n) (a : q.Answer)
    (events : List (Event (Probe R n) Probe.Answer)) :
    probesOf (.answered q a :: events) = (Tally.zero.count q).add (probesOf events) := by
  cases q <;>
    simp [probesOf, Tally.count, Tally.zero, Tally.add, List.countP_cons, Event.isCostProbe,
      Event.isGradientProbe, Nat.add_comm]

@[simp] theorem probesOf_cons_noted (record : LogRecord)
    (events : List (Event (Probe R n) Probe.Answer)) :
    probesOf (.noted record :: events) = probesOf events := by
  simp [probesOf, Event.isCostProbe, Event.isGradientProbe]

/-- Nothing is called in a transcript of events that are no calls. -/
theorem callsOf_eq_zero {events : List (Event (Consult R n) Consult.Answer)}
    (h : ∀ e ∈ events, e.isCostCall = false ∧ e.isGradientCall = false) :
    callsOf events = Tally.zero := by
  have hcost : events.countP Event.isCostCall = 0 :=
    List.countP_eq_zero.2 fun e he => by simp [(h e he).1]
  have hgradient : events.countP Event.isGradientCall = 0 :=
    List.countP_eq_zero.2 fun e he => by simp [(h e he).2]
  rw [callsOf, hcost, hgradient]
  rfl

/-- Records are no calls. -/
theorem Silent.callsOf_eq {events : List (Event (Consult R n) Consult.Answer)}
    (h : Silent events) : callsOf events = Tally.zero := by
  refine callsOf_eq_zero fun e he => ?_
  obtain ⟨record, rfl⟩ := h e he
  exact ⟨rfl, rfl⟩

/-- Difference passes do not count. -/
theorem Differences.callsOf_eq {events : List (Event (Consult R n) Consult.Answer)}
    (h : Differences events) : callsOf events = Tally.zero := by
  refine callsOf_eq_zero fun e he => ?_
  obtain ⟨x, a, rfl⟩ := h e he
  exact ⟨rfl, rfl⟩

/-! ### Counted searches -/

/-- **The tally of a counted search is the number of its probes.** -/
theorem unfolds_tallied {d : Search R n α} {t t' : Tally}
    {events : List (Event (Probe R n) Probe.Answer)} {a : α}
    (h : (d.tallied Tally.count t).Unfolds events (some (a, t'))) :
    t' = t.add (probesOf events) := by
  induction d generalizing t events with
  | done b =>
      obtain ⟨rfl, hb⟩ := Dialogue.unfolds_done h
      cases hb
      rfl
  | ask q next ih =>
      cases h with
      | ask answer rest =>
          rw [ih answer rest, probesOf_cons_answered, Tally.count_eq_add, Tally.add_assoc]
  | note record rest ih =>
      cases h with
      | note _ hrest => rw [ih hrest, probesOf_cons_noted]
  | unfinished => cases h

/-! ### Evaluations -/

section Evaluations

variable [Add R] [Sub R] [Div R] [Neg R] [Scalar R]

/-- **An evaluation is one call**, of the kind of the probe. -/
theorem callsOf_evaluate {h : R} {memory : FirstFailure R} {q : Probe R n}
    {events : List (Event (Consult R n) Consult.Answer)}
    {result : Option (q.Answer × FirstFailure R)}
    (hd : (evaluate h memory q).Unfolds events result) :
    callsOf events = Tally.zero.count q := by
  cases q with
  | cost x =>
      cases hd with
      | ask answer rest =>
          cases answer <;> obtain ⟨rfl, -⟩ := Dialogue.unfolds_done rest <;> rfl
  | gradient x =>
      cases hd with
      | @ask _ _ answer rest _ hrest =>
          have hdifferences : callsOf rest = Tally.zero := by
            dsimp only at hrest
            split at hrest
            · obtain ⟨rfl, -⟩ := Dialogue.unfolds_done hrest
              rfl
            · exact (differences_differenceGradient hrest).callsOf_eq
            · obtain ⟨rfl, -⟩ := Dialogue.unfolds_done hrest
              rfl
          rw [← List.singleton_append, callsOf_append, hdifferences]
          rfl

/-- **An evaluated search makes as many calls as probes.** -/
theorem Mediated.callsOf_eq {h : R} {memory memory' : FirstFailure R}
    {inner : List (Event (Probe R n) Probe.Answer)}
    {events : List (Event (Consult R n) Consult.Answer)}
    (hm : Mediated (evaluate h) memory inner events memory') :
    callsOf events = probesOf inner := by
  induction hm with
  | nil t => rfl
  | answered course _ ih =>
      rw [callsOf_append, callsOf_evaluate course, ih, probesOf_cons_answered]
  | noted record _ ih =>
      rw [probesOf_cons_noted, ← ih, ← List.singleton_append, callsOf_append]
      exact Tally.zero_add _

end Evaluations

/-! ### Iterations -/

namespace QuasiNewton

variable {criteria : Criteria} {allowance : Nat} {start : Vector Float n} {s s' : Iterate n}

/-- An iteration adds its probes. -/
theorem Advances.tally_eq {front : Probes n} (h : Advances criteria allowance s front s') :
    s'.tally = s.tally.add (probesOf front) := by
  cases h with
  | @intro search point cost probes gradient _ found =>
      have hprobes : probes = Tally.zero.add (probesOf search) := unfolds_tallied found
      rw [probesOf_append, hprobes, Tally.zero_add]
      rfl

/-- **The tally of an iterate counts the probes up to there.** -/
theorem Trail.tally_eq {earlier : List (Iterate n)} {events : Probes n}
    (h : Trail criteria allowance start earlier s events) : s.tally = probesOf events := by
  induction h with
  | initial cost gradient => rfl
  | further _ advances ih => rw [advances.tally_eq, ih, probesOf_append]

/-- **The tally at the end of a search is that of the last iterate**, and nothing was probed behind
it unless a line search has given up. -/
theorem Ends.tally_eq {left : Nat} {final : Probes n} {halt : Halt n}
    (h : Ends criteria allowance s left final (.ok halt)) :
    halt.tally = s.tally ∧ (halt.termination.verdict ≠ .stoppedEarly → final = []) := by
  cases h with
  | converged => exact ⟨rfl, fun _ => rfl⟩
  | capReached => exact ⟨rfl, fun _ => rfl⟩
  | gaveUp => exact ⟨rfl, fun hverdict => absurd rfl hverdict⟩

end QuasiNewton

/-! ### Maximisations -/

/-- **The calls of a maximisation that succeeds**: those that are counted, up to the last iterate,
and then those of a line search that has given up, if the search has stopped early. -/
theorem exists_calls_of_unfolds_maximize {level : LogLevel} {settings : Settings}
    {allowance : Nat} {start : Vector Float n} (hlevel : level ≠ .debug)
    {events : List (Event (Consult Float n) Consult.Answer)} {outcome : Outcome n}
    (h : (maximize level settings allowance start).Unfolds events (some (.ok outcome))) :
    ∃ criteria earlier last probes final counted lost,
      settings.criteria n = .ok criteria ∧
      Trail criteria allowance start earlier last probes ∧
      events = counted ++ lost ∧ callsOf counted = probesOf probes ∧ callsOf lost = probesOf final ∧
      outcome.tally = callsOf counted ∧
      (outcome.verdict ≠ .stoppedEarly → callsOf lost = Tally.zero) ∧
      (outcome.verdict = .stoppedEarly → last.GivesUp criteria allowance final) := by
  obtain ⟨criteria, earlier, last, probes, final, left, halt, memory, preview, course, notes,
    hcriteria, rfl, hnotes, hpreview, hmediated, htrail, hends, hcap, houtcome⟩ :=
    exists_ends_of_unfolds_maximize h
  obtain rfl := hpreview.eq_nil hlevel
  obtain ⟨counted, lost, _, hcounted, hlost, rfl⟩ := hmediated.exists_append
  have htold := Outcome.tellsWhy_of_ends hcap hends houtcome
  obtain ⟨htally, hidle⟩ := hends.tally_eq
  have hbehind : callsOf (lost ++ notes) = probesOf final := by
    rw [callsOf_append, hlost.callsOf_eq, hnotes.callsOf_eq, Tally.add_zero]
  obtain rfl := outcome_eq_ok houtcome
  refine ⟨criteria, earlier, last, probes, final, counted, lost ++ notes, hcriteria, htrail,
    by simp, hcounted.callsOf_eq, hbehind, ?_, fun hverdict => ?_, htold.stoppedEarly.1⟩
  · rw [hcounted.callsOf_eq, ← htrail.tally_eq]
    exact htally
  · rw [hbehind, hidle hverdict]
    rfl

end MarkovLogic
