/-
**The courses a dialogue may take.**

A run of a dialogue fixes who answers.  What holds whoever answers is better said of the *courses*
of the dialogue: the transcripts that some answers produce, each with the result it leads to.  A
run follows one course, and a course of a sequence or of a relayed dialogue comes from courses of
its parts.

Main definitions:

* `Dialogue.Unfolds` — a dialogue may take a course: a transcript with the result at its end;
* `Silent` — a transcript without questions;
* `Relayed` — an event of a dialogue and what becomes of it when questions are put in other words.

Main results:

* `Dialogue.unfolds_run` — **a run follows a course**;
* `Dialogue.unfolds_bind`, `Dialogue.unfolds_relay` — the courses of a composed dialogue, from the
  courses of its parts.
-/
import MarkovLogic.Dialogue
import Mathlib.Data.List.Forall2

set_option autoImplicit false

namespace MarkovLogic

variable {Q Q' : Type} {A : Q → Type} {A' : Q' → Type} {α β σ : Type}

/-! ### Courses -/

/-- With some answers the dialogue writes the transcript `events` and ends with `result`, which is
nothing if it is left unfinished. -/
inductive Dialogue.Unfolds : Dialogue Q A α → List (Event Q A) → Option α → Prop
  | done (result : α) : Unfolds (.done result) [] (some result)
  | ask {question : Q} {next : A question → Dialogue Q A α} (answer : A question)
      {events : List (Event Q A)} {result : Option α} (rest : Unfolds (next answer) events result) :
      Unfolds (.ask question next) (.answered question answer :: events) result
  | note (record : LogRecord) {d : Dialogue Q A α} {events : List (Event Q A)}
      {result : Option α} (rest : Unfolds d events result) :
      Unfolds (.note record d) (.noted record :: events) result
  | unfinished : Unfolds .unfinished [] none

namespace Dialogue

/-- **A run follows a course of the dialogue**, whoever answers. -/
theorem unfolds_run (respond : σ → (q : Q) → A q × σ) (d : Dialogue Q A α) (s : σ) :
    d.Unfolds (d.run respond s).transcript (d.run respond s).result := by
  induction d generalizing s with
  | done result => exact .done result
  | ask question next ih => exact .ask _ (ih _ _)
  | note record rest ih => exact .note record (ih s)
  | unfinished => exact .unfinished

/-- A run with a known result follows a course to this result. -/
theorem unfolds_of_result_run {respond : σ → (q : Q) → A q × σ} {d : Dialogue Q A α} {s : σ}
    {result : Option α} (h : (d.run respond s).result = result) :
    d.Unfolds (d.run respond s).transcript result := by
  rw [← h]
  exact unfolds_run respond d s

/-- A course of a sequence is a course of its first part, either without an end or followed by a
course of what comes next. -/
theorem unfolds_bind {d : Dialogue Q A α} {f : α → Dialogue Q A β} {events : List (Event Q A)}
    {result : Option β} (h : (d >>= f).Unfolds events result) :
    (d.Unfolds events none ∧ result = none) ∨
      ∃ before a after, d.Unfolds before (some a) ∧ (f a).Unfolds after result ∧
        events = before ++ after := by
  -- an event of the first part stands in front of whatever its rest splits into
  induction d generalizing events with
  | done a =>
      exact .inr ⟨[], a, events, .done a, h, rfl⟩
  | ask question next ih =>
      rw [ask_bind] at h
      cases h with
      | ask answer rest =>
          rcases ih answer rest with ⟨hd, hr⟩ | ⟨before, a, after, hd, hf, rfl⟩
          · exact .inl ⟨.ask answer hd, hr⟩
          · exact .inr ⟨.answered question answer :: before, a, after, .ask answer hd, hf, rfl⟩
  | note record rest ih =>
      rw [note_bind] at h
      cases h with
      | note _ rest =>
          rcases ih rest with ⟨hd, hr⟩ | ⟨before, a, after, hd, hf, rfl⟩
          · exact .inl ⟨.note record hd, hr⟩
          · exact .inr ⟨.noted record :: before, a, after, .note record hd, hf, rfl⟩
  | unfinished =>
      rw [unfinished_bind] at h
      cases h
      exact .inl ⟨.unfinished, rfl⟩

/-- A course of a sequence that comes to its end. -/
theorem unfolds_bind_some {d : Dialogue Q A α} {f : α → Dialogue Q A β}
    {events : List (Event Q A)} {b : β} (h : (d >>= f).Unfolds events (some b)) :
    ∃ before a after, d.Unfolds before (some a) ∧ (f a).Unfolds after (some b) ∧
      events = before ++ after := by
  rcases unfolds_bind h with ⟨-, hb⟩ | h
  · cases hb
  · exact h

/-- The only course of a finished dialogue. -/
theorem unfolds_done {a : α} {events : List (Event Q A)} {result : Option α}
    (h : (done a : Dialogue Q A α).Unfolds events result) : events = [] ∧ result = some a := by
  cases h
  exact ⟨rfl, rfl⟩

end Dialogue

/-! ### Records -/

/-- A transcript in which nothing is asked. -/
def Silent (events : List (Event Q A)) : Prop := ∀ e ∈ events, ∃ record, e = .noted record

@[simp] theorem silent_nil : Silent ([] : List (Event Q A)) := by simp [Silent]

@[simp] theorem silent_cons_noted (record : LogRecord) (events : List (Event Q A)) :
    Silent (.noted record :: events) ↔ Silent events := by simp [Silent]

/-- Nothing is answered where nothing is asked. -/
theorem Silent.not_mem_answered {events : List (Event Q A)} (h : Silent events) (q : Q)
    (a : A q) : .answered q a ∉ events := by
  intro hq
  obtain ⟨record, hrecord⟩ := h _ hq
  cases hrecord

theorem Silent.append {before after : List (Event Q A)} (hb : Silent before) (ha : Silent after) :
    Silent (before ++ after) := by
  exact List.forall_mem_append.2 ⟨hb, ha⟩

/-- Between records that enclose a dialogue and the dialogue itself, only the dialogue asks. -/
theorem mem_of_mem_enclosed {front body back : List (Event Q A)} (hfront : Silent front)
    (hback : Silent back) {q : Q} {a : A q} (h : .answered q a ∈ front ++ body ++ back) :
    .answered q a ∈ body := by
  rcases List.mem_append.1 h with h | h
  · exact (List.mem_append.1 h).resolve_left (hfront.not_mem_answered q a)
  · exact absurd h (hback.not_mem_answered q a)

/-- Writing a record asks nothing. -/
theorem Dialogue.unfolds_log {limit : LogLevel} {record : LogRecord} {events : List (Event Q A)}
    {result : Option Unit} (h : (Dialogue.log limit record).Unfolds events result) :
    Silent events ∧ result = some () := by
  unfold Dialogue.log at h
  split at h
  · cases h with
    | note _ rest =>
        obtain ⟨rfl, rfl⟩ := unfolds_done rest
        simp
  · obtain ⟨rfl, rfl⟩ := unfolds_done h
    simp

/-- In front of a dialogue a record leaves its courses as they are. -/
theorem Dialogue.unfolds_log_bind {limit : LogLevel} {record : LogRecord}
    {f : Unit → Dialogue Q A β} {events : List (Event Q A)} {result : Option β}
    (h : (Dialogue.log limit record >>= f).Unfolds events result) :
    ∃ notes after, Silent notes ∧ (f ()).Unfolds after result ∧ events = notes ++ after := by
  rcases unfolds_bind h with ⟨hl, -⟩ | ⟨notes, _, after, hl, hf, rfl⟩
  · exact absurd (unfolds_log hl).2 (by simp)
  · exact ⟨notes, after, (unfolds_log hl).1, hf, rfl⟩

/-! ### Questions in other words -/

/-- An event of a dialogue, and the event it becomes when the question is put in other words. -/
inductive Relayed (ask' : Q → Q') (read : (q : Q) → A' (ask' q) → A q) :
    Event Q A → Event Q' A' → Prop
  | answered (q : Q) (a : A' (ask' q)) :
      Relayed ask' read (.answered q (read q a)) (.answered (ask' q) a)
  | noted (record : LogRecord) : Relayed ask' read (.noted record) (.noted record)

/-- An answer was read from one in the other words. -/
theorem Relayed.exists_answer {ask' : Q → Q'} {read : (q : Q) → A' (ask' q) → A q} {q : Q} {a : A q}
    {e : Event Q' A'} (h : Relayed ask' read (.answered q a) e) :
    ∃ a', e = .answered (ask' q) a' ∧ a = read q a' := by
  cases h with
  | answered q a' => exact ⟨a', rfl, rfl⟩

/-- Each relayed event comes from an event in the old words. -/
theorem exists_relayed_of_mem {ask' : Q → Q'} {read : (q : Q) → A' (ask' q) → A q}
    {inner : List (Event Q A)} {events : List (Event Q' A')}
    (h : List.Forall₂ (Relayed ask' read) inner events) {e : Event Q' A'} (he : e ∈ events) :
    ∃ e' ∈ inner, Relayed ask' read e' e := by
  induction h with
  | nil => cases he
  | cons hfirst _ ih =>
      rcases List.mem_cons.1 he with rfl | he
      · exact ⟨_, List.mem_cons_self, hfirst⟩
      · obtain ⟨e', he', hrelayed⟩ := ih he
        exact ⟨e', List.mem_cons_of_mem _ he', hrelayed⟩

/-- Where a transcript splits, its relayed form splits. -/
theorem exists_append_of_relayed {ask' : Q → Q'} {read : (q : Q) → A' (ask' q) → A q}
    {before after : List (Event Q A)} {events : List (Event Q' A')}
    (h : List.Forall₂ (Relayed ask' read) (before ++ after) events) :
    ∃ before' after', List.Forall₂ (Relayed ask' read) before before' ∧
      List.Forall₂ (Relayed ask' read) after after' ∧ events = before' ++ after' := by
  induction before generalizing events with
  | nil => exact ⟨[], events, .nil, h, rfl⟩
  | cons e before ih =>
      cases h with
      | cons hfirst hrest =>
          obtain ⟨before', after', hbefore, hafter, rfl⟩ := ih hrest
          exact ⟨_, after', .cons hfirst hbefore, hafter, rfl⟩

/-- Where nothing is asked, nothing is asked in other words. -/
theorem Silent.relayed {ask' : Q → Q'} {read : (q : Q) → A' (ask' q) → A q}
    {inner : List (Event Q A)} {events : List (Event Q' A')} (hinner : Silent inner)
    (h : List.Forall₂ (Relayed ask' read) inner events) : Silent events := by
  intro e he
  obtain ⟨e', he', hrelayed⟩ := exists_relayed_of_mem h he
  obtain ⟨record, rfl⟩ := hinner e' he'
  cases hrelayed
  exact ⟨record, rfl⟩

/-- A course of a relayed dialogue is a course of the dialogue, event by event in other words. -/
theorem Dialogue.unfolds_relay {ask' : Q → Q'} {read : (q : Q) → A' (ask' q) → A q}
    {d : Dialogue Q A α} {events : List (Event Q' A')} {result : Option α}
    (h : (d.relay ask' read).Unfolds events result) :
    ∃ inner, d.Unfolds inner result ∧ List.Forall₂ (Relayed ask' read) inner events := by
  induction d generalizing events with
  | done a =>
      obtain ⟨rfl, rfl⟩ := unfolds_done h
      exact ⟨[], .done a, .nil⟩
  | ask question next ih =>
      cases h with
      | ask answer rest =>
          obtain ⟨inner, hd, hr⟩ := ih _ rest
          exact ⟨_, .ask _ hd, .cons (.answered question answer) hr⟩
  | note record rest ih =>
      cases h with
      | note _ rest =>
          obtain ⟨inner, hd, hr⟩ := ih rest
          exact ⟨_, .note record hd, .cons (.noted record) hr⟩
  | unfinished =>
      cases h
      exact ⟨[], .unfinished, .nil⟩

end MarkovLogic
