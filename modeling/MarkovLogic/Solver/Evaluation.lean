/-
**Cost and gradient from the objective.**

The cost is the objective's value with the other sign.  If the objective has no gradient of its own,
central differences of the cost take its place, and forward differences if those fail at some point
or do not come out finite.  A difference pass visits all its points whether or not earlier ones
fail.

The first failure of the objective is remembered, also when the search carries on without the value.
A value or gradient that is merely not finite is an error of the evaluation and not remembered.

Main definitions:

* `checkStart`, `checkGradient` — what is asked of a starting point and of a gradient;
* `costAt`, `gradientAt` — the two evaluations, with the remembered failure before and after;
* `centralPoints`, `forwardPoints` — where a difference pass looks;
* `evaluate` — the answer to any probe.
-/
import MarkovLogic.Scalar.Arrow
import MarkovLogic.Scalar.Finite
import MarkovLogic.Solver.Query

set_option autoImplicit false

namespace MarkovLogic

/-- The first failure of the objective so far. -/
abbrev FirstFailure (R : Type) : Type := Option (OptimizationError R)

/-- Remember a failure, unless there was one before. -/
def FirstFailure.record {R : Type} (memory : FirstFailure R) (error : OptimizationError R) :
    FirstFailure R :=
  match memory with
  | some first => some first
  | none => some error

@[simp] theorem FirstFailure.record_none {R : Type} (error : OptimizationError R) :
    FirstFailure.record none error = some error := rfl

@[simp] theorem FirstFailure.record_some {R : Type} (first error : OptimizationError R) :
    FirstFailure.record (some first) error = some first := rfl

variable {R : Type} {n : Nat}

/-! ### Checks -/

/-- A starting point has finite entries. -/
def checkStart [Scalar R] (start : Array R) : Except (OptimizationError R) Unit :=
  match firstNonFinite? start.toList with
  | some (index, value) => .error (.invalidStart index value)
  | none => .ok ()

/-- A gradient has `n` finite entries. -/
def checkGradient [Scalar R] (n : Nat) (g : Array R) :
    Except (OptimizationError R) (Vector R n) :=
  if h : g.size = n then
    match firstNonFinite? g.toList with
    | some (index, value) =>
      .error (.invalidGradient index value "Gradient elements must be finite.")
    | none => .ok ⟨g, h⟩
  else .error (.gradientLength n g.size)

/-! ### Values -/

/-- The cost at `x`. -/
def costAt [Neg R] [Scalar R] (purpose : Purpose) (x : Vector R n) (memory : FirstFailure R) :
    Consultation R n (Except (OptimizationError R) R × FirstFailure R) :=
  .ask (.value purpose x) fun
    | .error error => .done (.error error, memory.record error)
    | .ok v => .done (if Scalar.isFinite v then .ok (-v) else .error (.nonFiniteCost v), memory)

/-- The costs at a list of points, one after the other, whether or not earlier ones fail. -/
def costsAt [Neg R] [Scalar R] : List (Vector R n) → FirstFailure R →
    Consultation R n (List (Except (OptimizationError R) R) × FirstFailure R)
  | [], memory => .done ([], memory)
  | x :: xs, memory => do
    let (cost, memory) ← costAt .difference x memory
    let (costs, memory) ← costsAt xs memory
    return (cost :: costs, memory)

/-! ### Differences -/

/-- The point with the given step added to coordinate `i`. -/
def shifted [Add R] (x : Vector R n) (i : Fin n) (step : R) : Vector R n :=
  x.set i.val (x.get i + step) i.isLt

/-- The points of a central pass: above and then below in each coordinate. -/
def centralPoints [Add R] [Neg R] (h : R) (x : Vector R n) : List (Vector R n) :=
  (List.finRange n).flatMap fun i => [shifted x i h, shifted x i (-h)]

/-- The quotients of a central pass. -/
def centralQuotients [Add R] [Sub R] [Div R] (h : R) : List R → List R
  | above :: below :: rest => (above - below) / (h + h) :: centralQuotients h rest
  | _ => []

/-- The points of a forward pass: the point itself, then above it in each coordinate. -/
def forwardPoints [Add R] (h : R) (x : Vector R n) : List (Vector R n) :=
  x :: (List.finRange n).map fun i => shifted x i h

/-- The quotients of a forward pass. -/
def forwardQuotients [Sub R] [Div R] (h : R) : List R → List R
  | base :: rest => rest.map fun above => (above - base) / h
  | [] => []

/-- The values of a pass, or its first failure. -/
def passValues (results : List (Except (OptimizationError R) R)) :
    Except (OptimizationError R) (List R) :=
  results.mapM id

/-! ### Gradients -/

section Gradient

variable [Add R] [Sub R] [Div R] [Neg R] [Scalar R]

/-- The gradient of the cost by forward differences with step `h`. -/
def forwardGradient (h : R) (x : Vector R n) (memory : FirstFailure R) :
    Consultation R n (Except (OptimizationError R) (Vector R n) × FirstFailure R) := do
  let (results, memory) ← costsAt (forwardPoints h x) memory
  match passValues results with
  | .error error => return (.error error, memory)
  | .ok values => return (checkGradient n (forwardQuotients h values).toArray, memory)

/-- The gradient of the cost by central differences with step `h`, or else by forward ones. -/
def differenceGradient (h : R) (x : Vector R n) (memory : FirstFailure R) :
    Consultation R n (Except (OptimizationError R) (Vector R n) × FirstFailure R) := do
  let (results, memory) ← costsAt (centralPoints h x) memory
  match passValues results with
  | .error _ => forwardGradient h x memory
  | .ok values =>
    match checkGradient n (centralQuotients h values).toArray with
    | .error _ => forwardGradient h x memory
    | .ok g => return (.ok g, memory)

/-- The gradient of the cost at `x`: the objective's own with the other sign, or differences with
step `h` if it has none. -/
def gradientAt (h : R) (x : Vector R n) (memory : FirstFailure R) :
    Consultation R n (Except (OptimizationError R) (Vector R n) × FirstFailure R) :=
  .ask (.gradient x) fun
    | .ok g => .done ((checkGradient n g).map Arrow.neg, memory)
    | .error .gradientNotImplemented => differenceGradient h x memory
    | .error error => .done (.error error, memory.record error)

/-- The answer to a probe of the solver. -/
def evaluate (h : R) (memory : FirstFailure R) :
    (probe : Probe R n) → Consultation R n (probe.Answer × FirstFailure R)
  | .cost x => costAt .cost x memory
  | .gradient x => gradientAt h x memory

end Gradient

end MarkovLogic
