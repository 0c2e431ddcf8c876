/-
**What a dialogue records.**

The records of a composed dialogue are those of its parts.  What is asked has no part in them, so
that a dialogue in other words has the same records, and a mediated one those of the dialogues that
answer its questions.

Main definitions:

* `keptRecords` — the transcript of writing records of which some are kept;
* `Dialogue.Records` — a dialogue that writes records of a kind alone.

Main results:

* `Dialogue.unfolds_log_bind_kept` — what is kept of a record in front of a dialogue;
* `Dialogue.records_bind`, `Dialogue.records_relay` — **the records of a composed dialogue**;
* `transcriptLog_of_relayed` — the records of a transcript in other words.
-/
import MarkovLogic.Proofs.Dialogue.Course

set_option autoImplicit false

namespace MarkovLogic

variable {Q Q' : Type} {A : Q → Type} {A' : Q' → Type} {α β : Type}

/-! ### The records of a transcript -/

@[simp] theorem transcriptLog_nil : transcriptLog ([] : List (Event Q A)) = [] := rfl

@[simp] theorem transcriptLog_cons_answered (q : Q) (a : A q) (events : List (Event Q A)) :
    transcriptLog (.answered q a :: events) = transcriptLog events := rfl

@[simp] theorem transcriptLog_cons_noted (record : LogRecord) (events : List (Event Q A)) :
    transcriptLog (.noted record :: events) = record :: transcriptLog events := rfl

@[simp] theorem transcriptLog_append (before after : List (Event Q A)) :
    transcriptLog (before ++ after) = transcriptLog before ++ transcriptLog after :=
  List.filterMap_append

/-- In other words a transcript has the same records. -/
theorem transcriptLog_of_relayed {ask' : Q → Q'} {read : (q : Q) → A' (ask' q) → A q}
    {inner : List (Event Q A)} {events : List (Event Q' A')}
    (h : List.Forall₂ (Relayed ask' read) inner events) :
    transcriptLog events = transcriptLog inner := by
  induction h with
  | nil => rfl
  | cons hfirst _ ih =>
      cases hfirst with
      | answered q a => simpa using ih
      | noted record => simpa using ih

/-! ### Records that are kept -/

/-- The transcript of writing the records, of which those of a high enough level are kept. -/
def keptRecords (limit : LogLevel) (records : List LogRecord) : List (Event Q A) :=
  (records.filter fun record => limit.admits record.level).map .noted

@[simp] theorem transcriptLog_keptRecords (limit : LogLevel) (records : List LogRecord) :
    transcriptLog (keptRecords limit records : List (Event Q A)) =
      records.filter fun record => limit.admits record.level := by
  unfold keptRecords
  induction records.filter fun record => limit.admits record.level with
  | nil => rfl
  | cons record rest ih => simpa using ih

namespace Dialogue

/-- A record in front of a dialogue is written if it is kept. -/
theorem unfolds_log_bind_kept {limit : LogLevel} {record : LogRecord}
    {f : Unit → Dialogue Q A β} {events : List (Event Q A)} {result : Option β}
    (h : (Dialogue.log limit record >>= f).Unfolds events result) :
    ∃ after, (f ()).Unfolds after result ∧ events = keptRecords limit [record] ++ after := by
  unfold Dialogue.log at h
  split at h
  · rename_i hkept
    cases h with
    | note _ rest => exact ⟨_, rest, by simp [keptRecords, hkept]⟩
  · rename_i hkept
    exact ⟨events, h, by simp [keptRecords, hkept]⟩

/-! ### Records of a kind -/

/-- Every record that the dialogue writes, whoever answers, is of the kind. -/
def Records (kind : LogRecord → Prop) (d : Dialogue Q A α) : Prop :=
  ∀ (events : List (Event Q A)) (result : Option α), d.Unfolds events result →
    ∀ record ∈ transcriptLog events, kind record

variable {kind : LogRecord → Prop}

theorem records_done (a : α) : Records kind (.done a : Dialogue Q A α) := by
  intro events result h record hrecord
  obtain ⟨rfl, -⟩ := unfolds_done h
  cases hrecord

theorem records_unfinished : Records kind (.unfinished : Dialogue Q A α) := by
  intro events result h record hrecord
  cases h
  cases hrecord

/-- A question is no record. -/
theorem records_ask {question : Q} {next : A question → Dialogue Q A α}
    (h : ∀ answer, Records kind (next answer)) : Records kind (.ask question next) := by
  intro events result hd record hrecord
  cases hd with
  | ask answer rest => exact h answer _ _ rest record hrecord

theorem records_log {record : LogRecord} (limit : LogLevel) (h : kind record) :
    Records kind (Dialogue.log limit record : Dialogue Q A Unit) := by
  intro events result hd record' hrecord
  unfold Dialogue.log at hd
  split at hd
  · cases hd with
    | note _ rest =>
        obtain ⟨rfl, -⟩ := unfolds_done rest
        obtain rfl := List.mem_singleton.1 hrecord
        exact h
  · obtain ⟨rfl, -⟩ := unfolds_done hd
    cases hrecord

/-- **The records of a sequence are those of its parts.** -/
theorem records_bind {d : Dialogue Q A α} {f : α → Dialogue Q A β} (hd : Records kind d)
    (hf : ∀ a, Records kind (f a)) : Records kind (d >>= f) := by
  intro events result h record hrecord
  rcases unfolds_bind h with ⟨hfirst, -⟩ | ⟨before, a, after, hfirst, hnext, rfl⟩
  · exact hd _ _ hfirst record hrecord
  · rw [transcriptLog_append] at hrecord
    rcases List.mem_append.1 hrecord with hrecord | hrecord
    · exact hd _ _ hfirst record hrecord
    · exact hf a _ _ hnext record hrecord

/-- **The records of a relayed dialogue are those of the dialogue.** -/
theorem records_relay {ask' : Q → Q'} {read : (q : Q) → A' (ask' q) → A q} {d : Dialogue Q A α}
    (hd : Records kind d) : Records kind (d.relay ask' read) := by
  intro events result h record hrecord
  obtain ⟨inner, hinner, hrelayed⟩ := unfolds_relay h
  rw [transcriptLog_of_relayed hrelayed] at hrecord
  exact hd _ _ hinner record hrecord

end Dialogue

end MarkovLogic
