/-
**The questions of a maximisation.**

Two conversations take place, one inside the other.  The solver asks for *probes*: the cost at a
point, which it wants small, and the gradient of the cost.  Each probe is answered by *consulting*
the objective, whose value is wanted large and whose gradient may be missing.

Main definitions:

* `Consult` — a question to the objective, with the purpose for which a value is wanted;
* `Probe` — a question of the solver;
* `Consultation`, `Search` — the dialogues made of them.
-/
import MarkovLogic.Dialogue
import MarkovLogic.Error.Optimization

set_option autoImplicit false

namespace MarkovLogic

/-- Why a value of the objective is wanted.  The objective does not learn it. -/
inductive Purpose where
  /-- As the cost at a point. -/
  | cost
  /-- As one term of a difference quotient. -/
  | difference
deriving DecidableEq

/-- A question to an objective of `n` variables. -/
inductive Consult (R : Type) (n : Nat) where
  | value (purpose : Purpose) (point : Vector R n)
  | gradient (point : Vector R n)

/-- What an objective answers.  Nothing makes it return as many derivatives as variables. -/
@[reducible] def Consult.Answer {R : Type} {n : Nat} : Consult R n → Type
  | value .. => Except (OptimizationError R) R
  | gradient _ => Except (OptimizationError R) (Array R)

/-- The point at which the objective is consulted. -/
def Consult.point {R : Type} {n : Nat} : Consult R n → Vector R n
  | value _ x => x
  | gradient x => x

/-- A question of a solver over `n` variables. -/
inductive Probe (R : Type) (n : Nat) where
  | cost (point : Vector R n)
  | gradient (point : Vector R n)

/-- What a solver is told. -/
@[reducible] def Probe.Answer {R : Type} {n : Nat} : Probe R n → Type
  | cost _ => Except (OptimizationError R) R
  | gradient _ => Except (OptimizationError R) (Vector R n)

/-- A conversation with an objective. -/
abbrev Consultation (R : Type) (n : Nat) (α : Type) : Type :=
  Dialogue (Consult R n) Consult.Answer α

/-- A conversation of a solver. -/
abbrev Search (R : Type) (n : Nat) (α : Type) : Type := Dialogue (Probe R n) Probe.Answer α

namespace Search

variable {R : Type} {n : Nat}

/-- Probe the cost at `x`. -/
def cost (x : Vector R n) : Search R n (Except (OptimizationError R) R) := .ask (.cost x) .done

/-- Probe the gradient at `x`. -/
def gradient (x : Vector R n) : Search R n (Except (OptimizationError R) (Vector R n)) :=
  .ask (.gradient x) .done

end Search

end MarkovLogic
