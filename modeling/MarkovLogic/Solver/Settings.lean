/-
**Settings of a maximisation.**

Main definitions:

* `LineSearch`, `LineSearch.ofName` — the two line searches and their names;
* `Tolerances`, `Tolerances.make` — when to stop;
* `Settings`, `Settings.make`, `Settings.standard` — all that a caller may set;
* `Criteria`, `Settings.criteria` — what the solver works with, every omission filled in.
-/
import MarkovLogic.Error.Optimization

set_option autoImplicit false

namespace MarkovLogic

/-- How the size of a step is found. -/
inductive LineSearch where
  | moreThuente
  | hagerZhang
deriving DecidableEq

namespace LineSearch

/-- The name of the line search. -/
def name : LineSearch → String
  | moreThuente => "MoreThuente"
  | hagerZhang => "HagerZhang"

/-- The line search of a name in any case.  No letter beyond ASCII has a letter of the two names as
its small form, so the case of ASCII letters decides. -/
def ofName (text : String) : Except (OptimizationError Float) LineSearch :=
  let small := text.map Char.toLower
  if small = "morethuente" then .ok moreThuente
  else if small = "hagerzhang" then .ok hagerZhang
  else .error (.unknownLineSearch text
    "Valid options are case insensitive 'MoreThuente' or 'HagerZhang'.")

end LineSearch

/-! ### Tolerances -/

/-- When to stop; what is left open is filled in by the solver. -/
structure Tolerances where
  gradient : Option Float
  cost : Option Float
  iterations : Option Nat

/-- Why a tolerance is refused, if it is. -/
def toleranceFault? (tolerance : Float) : Option String :=
  if !tolerance.isFinite then some "Tolerance must be finite."
  else if tolerance ≤ 0 then some "Tolerance must be positive."
  else none

/-- A tolerance is open, or finite and positive.  What is refused is refused as `invalid`. -/
def checkTolerance (invalid : Float → String → OptimizationError Float) :
    Option Float → Except (OptimizationError Float) Unit
  | none => .ok ()
  | some tolerance =>
    match toleranceFault? tolerance with
    | some reason => .error (invalid tolerance reason)
    | none => .ok ()

/-- The check of the tolerance on the gradient. -/
def checkGradientTolerance : Option Float → Except (OptimizationError Float) Unit :=
  checkTolerance .invalidGradientTolerance

/-- The check of the tolerance on the cost. -/
def checkCostTolerance : Option Float → Except (OptimizationError Float) Unit :=
  checkTolerance .invalidCostTolerance

/-- Tolerances of which at least one is given, the given ones positive. -/
def Tolerances.make (gradient cost : Option Float) (iterations : Option Nat) :
    Except (OptimizationError Float) Tolerances :=
  if gradient.isNone && cost.isNone && iterations.isNone then .error .noTolerances
  else do
    checkCostTolerance cost
    checkGradientTolerance gradient
    if iterations = some 0 then
      .error (.invalidIterationCap 0 "Maximum iterations must be greater than zero.")
    else .ok ⟨gradient, cost, iterations⟩

/-! ### Settings -/

/-- What a caller may set. -/
structure Settings where
  tolerances : Tolerances
  lineSearch : LineSearch
  verbose : Bool
  /-- How many pairs of steps and gradient changes the solver remembers. -/
  memory : Option Nat

namespace Settings

/-- Settings in which the memory, if given, holds something. -/
def make (tolerances : Tolerances) (lineSearch : LineSearch) (verbose : Bool)
    (memory : Option Nat) : Except (OptimizationError Float) Settings :=
  if memory = some 0 then .error (.invalidMemory 0 "L-BFGS memory must be greater than zero.")
  else .ok ⟨tolerances, lineSearch, verbose, memory⟩

/-- The settings of a caller who sets nothing. -/
def standard : Settings := ⟨⟨some 1e-5, none, none⟩, .moreThuente, false, none⟩

end Settings

/-! ### Criteria -/

/-- The distance from one to the next double. -/
def machineEpsilon : Float := 2.220446049250313e-16

/-- The square root of `machineEpsilon`. -/
def rootEpsilon : Float := 1.4901161193847656e-8

/-- What the solver works with. -/
structure Criteria where
  gradient : Float
  cost : Float
  cap : Nat
  memory : Nat
  lineSearch : LineSearch

/-- The criteria for `n` variables.  The solver itself refuses a tolerance below zero, that on the
gradient first. -/
def Settings.criteria (settings : Settings) (n : Nat) :
    Except (OptimizationError Float) Criteria := do
  let refuse (name : String) (tolerance : Option Float) : Except (OptimizationError Float) Unit :=
    if tolerance.any (· < 0) then
      .error (.fault .invalidParameter s!"`L-BFGS`: {name} tolerance must be >= 0.")
    else .ok ()
  refuse "gradient" settings.tolerances.gradient
  refuse "cost" settings.tolerances.cost
  return {
    gradient := settings.tolerances.gradient.getD rootEpsilon
    cost := settings.tolerances.cost.getD machineEpsilon
    cap := settings.tolerances.iterations.getD (200 * max n 1)
    memory := settings.memory.getD 7
    lineSearch := settings.lineSearch }

end MarkovLogic
