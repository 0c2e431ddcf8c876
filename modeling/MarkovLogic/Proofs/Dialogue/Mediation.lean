/-
**The courses of a mediated dialogue.**

Where each question of a dialogue takes another dialogue to answer, a course of the whole is a
course of the dialogue in which every question is replaced by a course of what answers it, a block.
The memory that a block leaves is the one the next block begins with.

Main definitions:

* `Mediated` — a transcript of a dialogue, and the blocks that answer its questions one by one.

Main results:

* `Dialogue.unfolds_mediate` — **the courses of a mediated dialogue**;
* `Mediated.admitted` — answers are of the kind that the blocks can bring about;
* `Mediated.last` — the block of the last question stands at the end;
* `Mediated.exists_append` — where the dialogue splits, its blocks split.
-/
import MarkovLogic.Proofs.Dialogue.Ensures

set_option autoImplicit false

namespace MarkovLogic

variable {Q Q' : Type} {A : Q → Type} {A' : Q' → Type} {α τ : Type}
  {answer : τ → (q : Q) → Dialogue Q' A' (A q × τ)}

/-- A transcript with a block for every question, from one memory to another. -/
inductive Mediated (answer : τ → (q : Q) → Dialogue Q' A' (A q × τ)) :
    τ → List (Event Q A) → List (Event Q' A') → τ → Prop
  | nil (t : τ) : Mediated answer t [] [] t
  | answered {t t' t'' : τ} {q : Q} {a : A q} {block events : List (Event Q' A')}
      {inner : List (Event Q A)} (course : (answer t q).Unfolds block (some (a, t')))
      (rest : Mediated answer t' inner events t'') :
      Mediated answer t (.answered q a :: inner) (block ++ events) t''
  | noted {t t' : τ} (record : LogRecord) {inner : List (Event Q A)} {events : List (Event Q' A')}
      (rest : Mediated answer t inner events t') :
      Mediated answer t (.noted record :: inner) (.noted record :: events) t'

/-- **A course of a mediated dialogue** is a course of the dialogue with a block for every
question. -/
theorem Dialogue.unfolds_mediate {d : Dialogue Q A α} {t t' : τ} {events : List (Event Q' A')}
    {a : α} (h : (d.mediate answer t).Unfolds events (some (a, t'))) :
    ∃ inner, d.Unfolds inner (some a) ∧ Mediated answer t inner events t' := by
  induction d generalizing t events with
  | done result =>
      obtain ⟨rfl, hr⟩ := unfolds_done h
      cases hr
      exact ⟨[], .done a, .nil _⟩
  | ask question next ih =>
      obtain ⟨block, ⟨reply, t₁⟩, rest, hblock, hrest, rfl⟩ := unfolds_bind_some h
      obtain ⟨inner, hinner, hmediated⟩ := ih reply hrest
      exact ⟨_, .ask reply hinner, .answered hblock hmediated⟩
  | note record rest ih =>
      cases h with
      | note _ hrest =>
          obtain ⟨inner, hinner, hmediated⟩ := ih hrest
          exact ⟨_, .note record hinner, .noted record hmediated⟩
  | unfinished => cases h

namespace Mediated

variable {t t' : τ} {inner : List (Event Q A)} {events : List (Event Q' A')}

/-- **Answers are of a kind if admitted blocks bring about such answers alone.** -/
theorem admitted {allowed : (q : Q) → A q → Prop} {allowed' : (q : Q') → A' q → Prop}
    (hanswer : ∀ t q, Dialogue.Ensures allowed' (answer t q) fun r => allowed q r.1)
    (h : Mediated answer t inner events t') (hevents : Admitted allowed' events) :
    Admitted allowed inner := by
  induction h with
  | nil t => exact admitted_nil
  | answered course _ ih =>
      obtain ⟨hblock, hrest⟩ := admitted_append.1 hevents
      exact admitted_cons_answered.2 ⟨hanswer _ _ _ _ course hblock, ih hrest⟩
  | noted record _ ih =>
      exact admitted_cons_noted.2 (ih (admitted_cons_noted.1 hevents))

/-- **The block of the last question stands at the end.** -/
theorem last {before : List (Event Q A)} {q : Q} {a : A q}
    (h : Mediated answer t (before ++ [.answered q a]) events t') :
    ∃ front block t₁, (answer t₁ q).Unfolds block (some (a, t')) ∧ events = front ++ block := by
  induction before generalizing t events with
  | nil =>
      cases h with
      | answered course rest =>
          cases rest
          exact ⟨[], _, t, course, by simp⟩
  | cons e before ih =>
      cases h with
      | answered course rest =>
          obtain ⟨front, block, t₁, hblock, rfl⟩ := ih rest
          exact ⟨_, block, t₁, hblock, (List.append_assoc ..).symm⟩
      | noted record rest =>
          obtain ⟨front, block, t₁, hblock, rfl⟩ := ih rest
          exact ⟨.noted record :: front, block, t₁, hblock, rfl⟩

/-- **Where the dialogue splits, its blocks split.** -/
theorem exists_append {before after : List (Event Q A)}
    (h : Mediated answer t (before ++ after) events t') :
    ∃ front back t₁, Mediated answer t before front t₁ ∧ Mediated answer t₁ after back t' ∧
      events = front ++ back := by
  induction before generalizing t events with
  | nil => exact ⟨[], events, t, .nil t, h, rfl⟩
  | cons e before ih =>
      cases h with
      | answered course rest =>
          obtain ⟨front, back, t₁, hfront, hback, rfl⟩ := ih rest
          exact ⟨_, back, t₁, .answered course hfront, hback, (List.append_assoc ..).symm⟩
      | noted record rest =>
          obtain ⟨front, back, t₁, hfront, hback, rfl⟩ := ih rest
          exact ⟨_, back, t₁, .noted record hfront, hback, rfl⟩

end Mediated

end MarkovLogic
