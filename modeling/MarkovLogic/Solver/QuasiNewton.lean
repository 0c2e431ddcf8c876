/-
**Limited-memory quasi-Newton descent.**

The cost is lowered step by step.  Each direction is the gradient turned by an approximation of the
inverse curvature, which the last few steps and gradient changes determine; a line search finds the
size of the step.  The search ends when gradient or change of cost fall below their tolerance, when
the iterations are used up, or when a line search fails.

Main definitions:

* `Curvature`, `turned` — a remembered step with its gradient change, and the two passes over them;
* `Iterate` — the state between two iterations;
* `Halt` — the state at the end;
* `descend` — the search from a starting point.
-/
import MarkovLogic.Solver.LineSearch.HagerZhang
import MarkovLogic.Solver.LineSearch.MoreThuente
import MarkovLogic.Solver.Outcome

set_option autoImplicit false

namespace MarkovLogic.QuasiNewton

variable {n : Nat}

/-! ### Direction -/

/-- A step and the change of the gradient over it. -/
structure Curvature (n : Nat) where
  step : Vector Float n
  change : Vector Float n

/-- The scale of the initial curvature, from the newest pair. -/
def initialScale : List (Curvature n) → Float
  | [] => 1.0
  | newest :: _ => Arrow.dot newest.step newest.change / Arrow.dot newest.change newest.change

/-- The gradient turned by the remembered pairs, newest first: each takes its share off on the way
to the oldest and puts its correction back on the way out. -/
def turnedBy (scale : Float) : List (Curvature n) → Vector Float n → Vector Float n
  | [], q => Arrow.scale q scale
  | pair :: older, q =>
    let rho := 1.0 / Arrow.dot pair.change pair.step
    let alpha := Arrow.dot pair.step q * rho
    let r := turnedBy scale older (Vector.zipWith (fun q y => q - y * alpha) q pair.change)
    let beta := Arrow.dot pair.change r * rho
    Vector.zipWith (fun r s => r + s * (alpha - beta)) r pair.step

/-- The direction of descent. -/
def direction (memory : List (Curvature n)) (gradient : Vector Float n) : Vector Float n :=
  Arrow.scale (turnedBy (initialScale memory) memory gradient) (-1.0)

/-! ### Iteration -/

/-- The state between two iterations. -/
structure Iterate (n : Nat) where
  point : Vector Float n
  cost : Float
  costBefore : Float
  gradient : Vector Float n
  bestPoint : Vector Float n
  bestCost : Float
  /-- The remembered pairs, newest first. -/
  memory : List (Curvature n)
  iteration : Nat
  tally : Tally

/-- The state at the end. -/
structure Halt (n : Nat) where
  bestPoint : Vector Float n
  bestCost : Float
  /-- The gradient at the last point, not at the best one; none after a failed line search. -/
  gradient : Option (Vector Float n)
  termination : Termination
  iterations : Nat
  tally : Tally

/-- The gradient or the last change of the cost is below its tolerance. -/
def Iterate.converged (criteria : Criteria) (s : Iterate n) : Bool :=
  Arrow.length s.gradient < criteria.gradient || (s.costBefore - s.cost).abs < criteria.cost

/-- The end at a state. -/
def Iterate.halt (s : Iterate n) (reason : StopReason) : Halt n :=
  ⟨s.bestPoint, s.bestCost, some s.gradient, .stopped reason, s.iteration, s.tally⟩

/-- The end in the middle of an iteration, after a failed line search.  Its probes are not counted
and the gradient is gone. -/
def Iterate.giveUp (s : Iterate n) (failure : StepFailure) : Halt n :=
  ⟨s.bestPoint, s.bestCost, none,
    .stopped (.gaveUp s!"Line search terminated with: '{failure.message}'"), s.iteration + 1,
    s.tally⟩

/-- The state after a step to a point of known cost and gradient, with the probes of the step. -/
def Iterate.advance (criteria : Criteria) (s : Iterate n) (point : Vector Float n) (cost : Float)
    (gradient : Vector Float n) (probes : Tally) : Iterate n :=
  let better : Bool := cost < s.bestCost
  { point := point
    cost := cost
    costBefore := s.cost
    gradient := gradient
    bestPoint := if better then point else s.bestPoint
    bestCost := if better then cost else s.bestCost
    memory := ⟨Arrow.sub point s.point, Arrow.sub gradient s.gradient⟩ ::
      if criteria.memory ≤ s.iteration then s.memory.dropLast else s.memory
    iteration := s.iteration + 1
    tally := s.tally.add probes }

/-- The line search of the criteria. -/
def stepAlong (criteria : Criteria) (allowance : Nat) (ray : Ray n) :
    Attempt n (Vector Float n × Float) :=
  match criteria.lineSearch with
  | .moreThuente => MoreThuente.search ray allowance
  | .hagerZhang => HagerZhang.search ray allowance

/-- Iterate from a state with the given number of iterations left.  An error of the gradient at the
new point ends the search with that error. -/
def iterate (criteria : Criteria) (allowance : Nat) : Nat → Iterate n →
    Search Float n (Except (OptimizationError Float) (Halt n))
  | left, s =>
    if s.converged criteria then return .ok (s.halt .converged)
    else match left with
      | 0 => return .ok (s.halt .capReached)
      | left + 1 => do
        let ray : Ray n := ⟨s.point, s.cost, s.gradient, direction s.memory s.gradient⟩
        let (step, probes) ← (stepAlong criteria allowance ray).run.tallied Tally.count Tally.zero
        match step with
        | .error failure => return .ok (s.giveUp failure)
        | .ok (point, cost) =>
          match ← Search.gradient point with
          | .error error => return .error error
          | .ok gradient =>
            iterate criteria allowance left
              (s.advance criteria point cost gradient (probes.add ⟨0, 1⟩))

/-- The search from a starting point; cost and gradient there have to exist. -/
def descend (criteria : Criteria) (allowance : Nat) (start : Vector Float n) :
    Search Float n (Except (OptimizationError Float) (Halt n)) := do
  match ← Search.cost start with
  | .error error => return .error error
  | .ok cost =>
    match ← Search.gradient start with
    | .error error => return .error error
    | .ok gradient =>
      iterate criteria allowance criteria.cap
        { point := start
          cost := cost
          costBefore := 1.0 / 0.0
          gradient := gradient
          bestPoint := start
          bestCost := cost
          memory := []
          iteration := 0
          tally := ⟨1, 1⟩ }

end MarkovLogic.QuasiNewton
