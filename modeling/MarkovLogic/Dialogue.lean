/-
**Computations that ask questions.**

A search for a maximum sees its objective only through the answers it gets.  It is written as a
dialogue: a tree that asks a question, goes on with the answer, and ends with a result.  Nothing is
assumed about who answers; an answer may depend on everything that was asked before.

Main definitions:

* `Dialogue` — done, a question with a continuation, a log record, or unfinished;
* `Dialogue.run` — the result, the last state of the respondent and the transcript;
* `Dialogue.relay` — the same dialogue with its questions put to someone else in other words;
* `Dialogue.mediate` — the same, where a question may take a dialogue and a memory to answer;
* `Dialogue.tallied` — the same, with its questions counted.

An unfinished dialogue is one whose allowance of steps ran out.  It is no error: nothing can catch
it, and it has no result.
-/
import MarkovLogic.Log

set_option autoImplicit false

namespace MarkovLogic

/-- A computation of an `α` that may put questions `q : Q`, each with an answer in `A q`. -/
inductive Dialogue (Q : Type) (A : Q → Type) (α : Type) where
  | done (result : α)
  | ask (question : Q) (next : A question → Dialogue Q A α)
  | note (record : LogRecord) (rest : Dialogue Q A α)
  | unfinished

/-- What an observer of a dialogue sees: the questions with their answers, and the records. -/
inductive Event (Q : Type) (A : Q → Type) where
  | answered (question : Q) (answer : A question)
  | noted (record : LogRecord)

/-- The end of a dialogue: its result unless it is unfinished, the state in which it leaves the
respondent, and its transcript. -/
structure Exchange (Q : Type) (A : Q → Type) (σ α : Type) where
  result : Option α
  state : σ
  transcript : List (Event Q A)

namespace Dialogue

variable {Q Q' : Type} {A : Q → Type} {A' : Q' → Type} {α β σ τ : Type}

/-! ### Sequencing -/

/-- Continue a dialogue with its result. -/
protected def bind : Dialogue Q A α → (α → Dialogue Q A β) → Dialogue Q A β
  | done result, f => f result
  | ask question next, f => ask question fun answer => (next answer).bind f
  | note record rest, f => note record (rest.bind f)
  | unfinished, _ => unfinished

instance : Monad (Dialogue Q A) where
  pure := done
  bind := Dialogue.bind

@[simp] theorem pure_eq (result : α) : (pure result : Dialogue Q A α) = done result := rfl

@[simp] theorem done_bind (result : α) (f : α → Dialogue Q A β) :
    done result >>= f = f result := rfl

@[simp] theorem ask_bind (question : Q) (next : A question → Dialogue Q A α)
    (f : α → Dialogue Q A β) :
    ask question next >>= f = ask question fun answer => next answer >>= f := rfl

@[simp] theorem note_bind (record : LogRecord) (rest : Dialogue Q A α) (f : α → Dialogue Q A β) :
    note record rest >>= f = note record (rest >>= f) := rfl

@[simp] theorem unfinished_bind (f : α → Dialogue Q A β) :
    (unfinished : Dialogue Q A α) >>= f = unfinished := rfl

/-- Write a record, if records of its level are kept. -/
def log (limit : LogLevel) (record : LogRecord) : Dialogue Q A Unit :=
  if limit.admits record.level then note record (done ()) else done ()

/-! ### Running a dialogue -/

/-- Let a respondent with a memory answer.  Its answers may depend on all earlier questions. -/
def run (respond : σ → (q : Q) → A q × σ) : Dialogue Q A α → σ → Exchange Q A σ α
  | done result, s => ⟨some result, s, []⟩
  | ask question next, s =>
    let (answer, s) := respond s question
    let rest := (next answer).run respond s
    { rest with transcript := .answered question answer :: rest.transcript }
  | note record rest, s =>
    let rest := rest.run respond s
    { rest with transcript := .noted record :: rest.transcript }
  | unfinished, s => ⟨none, s, []⟩

/-! ### Passing questions on -/

/-- Put each question in other words, and read the answer back. -/
def relay (ask' : Q → Q') (read : (q : Q) → A' (ask' q) → A q) :
    Dialogue Q A α → Dialogue Q' A' α
  | done result => done result
  | ask question next =>
    ask (ask' question) fun answer => relay ask' read (next (read question answer))
  | note record rest => note record (relay ask' read rest)
  | unfinished => unfinished

/-- Answer each question by a dialogue with someone else; a memory passes from one to the next. -/
def mediate (answer : τ → (q : Q) → Dialogue Q' A' (A q × τ)) :
    Dialogue Q A α → τ → Dialogue Q' A' (α × τ)
  | done result, t => done (result, t)
  | ask question next, t => answer t question >>= fun (a, t) => mediate answer (next a) t
  | note record rest, t => note record (mediate answer rest t)
  | unfinished, _ => unfinished

/-- The same dialogue with a tally of its questions. -/
def tallied (count : τ → Q → τ) : Dialogue Q A α → τ → Dialogue Q A (α × τ)
  | done result, t => done (result, t)
  | ask question next, t =>
    ask question fun answer => tallied count (next answer) (count t question)
  | note record rest, t => note record (tallied count rest t)
  | unfinished, _ => unfinished

end Dialogue

/-- The records of a transcript. -/
def transcriptLog {Q : Type} {A : Q → Type} (events : List (Event Q A)) : List LogRecord :=
  events.filterMap fun
    | .noted record => some record
    | .answered .. => none

end MarkovLogic
