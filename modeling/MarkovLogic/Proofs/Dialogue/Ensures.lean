/-
**What a dialogue ensures.**

A dialogue whose questions get answers of a certain kind may ensure something of its result, however
long it goes on and whichever of those answers it gets.  What a composed dialogue ensures follows
from what its parts ensure.  A dialogue that is left unfinished ensures everything: it has no
result.

Main definitions:

* `Admitted` — a transcript with answers of the kind alone;
* `Dialogue.Ensures` — every result behind such a transcript has a property.

Main results:

* `Dialogue.ensures_bind` — **what a sequence ensures**;
* `Dialogue.ensures_tallied` — counting the questions changes nothing;
* `admitted_run` — a respondent whose answers are of the kind leaves a transcript of such answers;
* `run_eq_of_unfolds` — **a course with the answers of a function is the run with this respondent**.
-/
import MarkovLogic.Proofs.Dialogue.Course
import MarkovLogic.Proofs.Dialogue.Run

set_option autoImplicit false

namespace MarkovLogic

variable {Q : Type} {A : Q → Type} {α β σ τ : Type} {allowed : (q : Q) → A q → Prop}

/-! ### Admitted transcripts -/

/-- Every answer of the transcript is allowed. -/
def Admitted (allowed : (q : Q) → A q → Prop) (events : List (Event Q A)) : Prop :=
  ∀ q a, .answered q a ∈ events → allowed q a

@[simp] theorem admitted_nil : Admitted allowed [] := by simp [Admitted]

@[simp] theorem admitted_cons_answered {q : Q} {a : A q} {events : List (Event Q A)} :
    Admitted allowed (.answered q a :: events) ↔ allowed q a ∧ Admitted allowed events := by
  constructor
  · intro h
    exact ⟨h q a List.mem_cons_self, fun q' a' hq => h q' a' (List.mem_cons_of_mem _ hq)⟩
  · rintro ⟨ha, h⟩ q' a' hq
    rcases List.mem_cons.1 hq with heq | hq
    · cases heq
      exact ha
    · exact h q' a' hq

@[simp] theorem admitted_cons_noted {record : LogRecord} {events : List (Event Q A)} :
    Admitted allowed (.noted record :: events) ↔ Admitted allowed events := by
  simp [Admitted]

@[simp] theorem admitted_append {before after : List (Event Q A)} :
    Admitted allowed (before ++ after) ↔ Admitted allowed before ∧ Admitted allowed after := by
  constructor
  · intro h
    exact ⟨fun q a hq => h q a (List.mem_append_left _ hq),
      fun q a hq => h q a (List.mem_append_right _ hq)⟩
  · rintro ⟨hb, ha⟩ q a hq
    exact (List.mem_append.1 hq).elim (hb q a) (ha q a)

/-- What stands between other events of an admitted transcript is admitted. -/
theorem Admitted.enclosed {front body back : List (Event Q A)}
    (h : Admitted allowed (front ++ body ++ back)) : Admitted allowed body :=
  (admitted_append.1 (admitted_append.1 h).1).2

/-- **A respondent whose answers are allowed leaves an admitted transcript.** -/
theorem admitted_run {respond : σ → (q : Q) → A q × σ} (h : ∀ s q, allowed q (respond s q).1)
    (d : Dialogue Q A α) (s : σ) : Admitted allowed (d.run respond s).transcript := by
  induction d generalizing s with
  | done a => exact admitted_nil
  | ask question next ih => exact admitted_cons_answered.2 ⟨h s question, ih _ _⟩
  | note record rest ih => exact admitted_cons_noted.2 (ih s)
  | unfinished => exact admitted_nil

/-- **A course with the answers of a function is the run with this respondent.** -/
theorem run_eq_of_unfolds {answer : (q : Q) → A q} {d : Dialogue Q A α} {events : List (Event Q A)}
    {result : Option α} (h : d.Unfolds events result)
    (hadmitted : Admitted (fun q a => a = answer q) events) :
    d.run (fun (_ : Unit) q => (answer q, ())) () = ⟨result, (), events⟩ := by
  induction h with
  | done a => rfl
  | @ask question next a events result rest ih =>
      obtain ⟨rfl, hrest⟩ := admitted_cons_answered.1 hadmitted
      rw [Dialogue.run_ask, ih hrest]
  | note record rest ih => rw [Dialogue.run_note, ih (admitted_cons_noted.1 hadmitted)]
  | unfinished => rfl

/-! ### What is ensured -/

/-- Behind answers that are allowed, a result of the dialogue has the property. -/
def Dialogue.Ensures (allowed : (q : Q) → A q → Prop) (d : Dialogue Q A α) (post : α → Prop) :
    Prop :=
  ∀ (events : List (Event Q A)) (a : α),
    d.Unfolds events (some a) → Admitted allowed events → post a

namespace Dialogue

variable {post : α → Prop} {post' : β → Prop}

theorem ensures_done {a : α} (h : post a) : Ensures allowed (.done a) post := by
  intro events b hd _
  obtain ⟨-, hb⟩ := unfolds_done hd
  cases hb
  exact h

theorem ensures_unfinished : Ensures allowed .unfinished post := by
  intro events a hd
  cases hd

/-- Any allowed answer may come to a question. -/
theorem ensures_ask {question : Q} {next : A question → Dialogue Q A α}
    (h : ∀ answer, allowed question answer → Ensures allowed (next answer) post) :
    Ensures allowed (.ask question next) post := by
  intro events a hd hadmitted
  cases hd with
  | ask answer rest =>
      obtain ⟨hanswer, hrest⟩ := admitted_cons_answered.1 hadmitted
      exact h answer hanswer _ a rest hrest

theorem ensures_note {record : LogRecord} {rest : Dialogue Q A α} (h : Ensures allowed rest post) :
    Ensures allowed (.note record rest) post := by
  intro events a hd hadmitted
  cases hd with
  | note _ hrest => exact h _ a hrest (admitted_cons_noted.1 hadmitted)

/-- **A sequence ensures what its second part does behind any result that its first part
ensures.** -/
theorem ensures_bind {d : Dialogue Q A α} {f : α → Dialogue Q A β} (hd : Ensures allowed d post)
    (hf : ∀ a, post a → Ensures allowed (f a) post') : Ensures allowed (d >>= f) post' := by
  intro events b h hadmitted
  obtain ⟨before, a, after, hda, hfa, rfl⟩ := unfolds_bind_some h
  obtain ⟨hbefore, hafter⟩ := admitted_append.1 hadmitted
  exact hf a (hd before a hda hbefore) after b hfa hafter

/-- **Counting the questions changes nothing.** -/
theorem ensures_tallied {d : Dialogue Q A α} (h : Ensures allowed d post) (count : τ → Q → τ)
    (t : τ) : Ensures allowed (d.tallied count t) fun a => post a.1 := by
  induction d generalizing t with
  | done a => exact ensures_done (h [] a (.done a) admitted_nil)
  | ask question next ih =>
      refine ensures_ask fun answer hanswer => ih answer (fun events a hd hadmitted => ?_) _
      exact h _ a (.ask answer hd) (admitted_cons_answered.2 ⟨hanswer, hadmitted⟩)
  | note record rest ih =>
      refine ensures_note (ih (fun events a hd hadmitted => ?_) t)
      exact h _ a (.note record hd) (admitted_cons_noted.2 hadmitted)
  | unfinished => exact ensures_unfinished

end Dialogue

end MarkovLogic
