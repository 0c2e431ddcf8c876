/-
**Runs of composed dialogues.**

With a respondent fixed, a dialogue has one run.  The run of a sequence is the run of its first
part followed by the run of what comes next, and to put the questions of a dialogue in other words
is to let the respondent hear them in other words.

Main definitions:

* `Exchange.andThen` — an exchange continued from its result and its state;
* `Dialogue.hear` — the respondent that hears questions in other words.

Main results:

* `Dialogue.bind_assoc` — sequencing is associative;
* `Dialogue.run_bind` — **the run of a sequence**;
* `Dialogue.run_relay` — the end of the run of a relayed dialogue.
-/
import MarkovLogic.Dialogue

set_option autoImplicit false

namespace MarkovLogic

variable {Q Q' : Type} {A : Q → Type} {A' : Q' → Type} {α β γ σ : Type}

/-! ### Sequences -/

/-- Continue an exchange from its result and its state. -/
def Exchange.andThen (first : Exchange Q A σ α) (next : α → σ → Exchange Q A σ β) :
    Exchange Q A σ β :=
  match first.result with
  | some a =>
    let rest := next a first.state
    { rest with transcript := first.transcript ++ rest.transcript }
  | none => ⟨none, first.state, first.transcript⟩

theorem Exchange.andThen_result (first : Exchange Q A σ α) (next : α → σ → Exchange Q A σ β) :
    (first.andThen next).result =
      first.result.bind fun a => (next a first.state).result := by
  unfold Exchange.andThen
  split <;> simp [*]

theorem Exchange.andThen_of_result {first : Exchange Q A σ α} {a : α}
    (h : first.result = some a) (next : α → σ → Exchange Q A σ β) :
    first.andThen next = { next a first.state with
      transcript := first.transcript ++ (next a first.state).transcript } := by
  simp [Exchange.andThen, h]

namespace Dialogue

theorem run_ask (respond : σ → (q : Q) → A q × σ) (question : Q)
    (next : A question → Dialogue Q A α) (s : σ) :
    (ask question next).run respond s =
      let rest := (next (respond s question).1).run respond (respond s question).2
      { rest with transcript := .answered question (respond s question).1 :: rest.transcript } :=
  rfl

theorem run_note (respond : σ → (q : Q) → A q × σ) (record : LogRecord) (rest : Dialogue Q A α)
    (s : σ) : (note record rest).run respond s =
      { rest.run respond s with transcript := .noted record :: (rest.run respond s).transcript } :=
  rfl

/-- Sequencing is associative. -/
theorem bind_assoc (d : Dialogue Q A α) (f : α → Dialogue Q A β) (g : β → Dialogue Q A γ) :
    d >>= f >>= g = d >>= fun a => f a >>= g := by
  induction d with
  | done a => rfl
  | ask question next ih =>
      rw [ask_bind, ask_bind, ask_bind]
      exact congrArg _ (funext ih)
  | note record rest ih => rw [note_bind, note_bind, note_bind, ih]
  | unfinished => rfl

/-- **The run of a sequence** is the run of its first part, continued. -/
theorem run_bind (respond : σ → (q : Q) → A q × σ) (d : Dialogue Q A α)
    (f : α → Dialogue Q A β) (s : σ) :
    (d >>= f).run respond s = (d.run respond s).andThen fun a => (f a).run respond := by
  induction d generalizing s with
  | done a => rfl
  | ask question next ih =>
      rw [ask_bind, run_ask, run_ask, ih]
      simp only [Exchange.andThen]
      split <;> rfl
  | note record rest ih =>
      rw [note_bind, run_note, run_note, ih]
      simp only [Exchange.andThen]
      split <;> rfl
  | unfinished => rfl

/-- The result of the run of a sequence. -/
theorem result_run_bind (respond : σ → (q : Q) → A q × σ) (d : Dialogue Q A α)
    (f : α → Dialogue Q A β) (s : σ) :
    ((d >>= f).run respond s).result = (d.run respond s).result.bind fun a =>
      ((f a).run respond (d.run respond s).state).result := by
  rw [run_bind, Exchange.andThen_result]

/-- A record in front of a dialogue does not show in the result. -/
theorem result_run_log_bind (respond : σ → (q : Q) → A q × σ) (limit : LogLevel)
    (record : LogRecord) (f : Unit → Dialogue Q A β) (s : σ) :
    ((Dialogue.log limit record >>= f).run respond s).result = ((f ()).run respond s).result := by
  unfold Dialogue.log
  split <;> rfl

/-! ### Questions in other words -/

/-- Let a respondent hear questions in other words, and read its answers back. -/
def hear (ask' : Q → Q') (read : (q : Q) → A' (ask' q) → A q)
    (respond : σ → (q : Q') → A' q × σ) (s : σ) (q : Q) : A q × σ :=
  (read q (respond s (ask' q)).1, (respond s (ask' q)).2)

/-- A relayed dialogue ends as the dialogue does when the respondent hears the other words. -/
theorem run_relay (ask' : Q → Q') (read : (q : Q) → A' (ask' q) → A q)
    (respond : σ → (q : Q') → A' q × σ) (d : Dialogue Q A α) (s : σ) :
    ((d.relay ask' read).run respond s).result = (d.run (hear ask' read respond) s).result ∧
      ((d.relay ask' read).run respond s).state = (d.run (hear ask' read respond) s).state := by
  induction d generalizing s with
  | done a => exact ⟨rfl, rfl⟩
  | ask question next ih => exact ih _ _
  | note record rest ih => exact ih s
  | unfinished => exact ⟨rfl, rfl⟩

end Dialogue

end MarkovLogic
