/-
**Differences in place of a missing gradient.**

An objective without a gradient is asked for values instead: in a central pass and, if that does not
succeed, in a forward pass.  The second pass forgets what went wrong in the first, so that the end
of the evaluation is that of the pass it ends with.

The evaluation may also be carried out with a cost function that returns numbers only: where the
cost is missing it returns a number that stands in for it, and the first such failure is parked.
Because the parked failure is looked at before the quotients are used, and cleared before the
second pass, the number that stands in is never seen.

Main definitions:

* `numbersAt`, `forwardStandingIn`, `gradientStandingIn` — the evaluation with numbers that stand in
  for missing costs.

Main results:

* `gradientStandingIn_eq` — **no number that stands in is ever seen**;
* `gradient_by_differences` — **what comes of an evaluation without a gradient**.
-/
import MarkovLogic.Proofs.Solver.Passes

set_option autoImplicit false

namespace MarkovLogic

variable {R σ : Type} {n : ℕ}

/-! ### Numbers that stand in for missing costs -/

/-- The cost in a result, or a number that stands in for it. -/
def numberOr (standIn : R) : Except (OptimizationError R) R → R
  | .ok cost => cost
  | .error _ => standIn

/-- The cost at `x` as a number.  If it is missing, a number stands in for it and the failure is
parked, unless one was parked before. -/
def numberAt [Neg R] [Scalar R] (standIn : R) (x : Vector R n) (parked memory : FirstFailure R) :
    Consultation R n (R × FirstFailure R × FirstFailure R) := do
  let (cost, memory) ← costAt .difference x memory
  match cost with
  | .ok cost => return (cost, parked, memory)
  | .error error => return (standIn, parked.record error, memory)

/-- The costs at a list of points as numbers, one after the other. -/
def numbersAt [Neg R] [Scalar R] (standIn : R) : List (Vector R n) → FirstFailure R →
    FirstFailure R → Consultation R n (List R × FirstFailure R × FirstFailure R)
  | [], parked, memory => .done ([], parked, memory)
  | x :: xs, parked, memory => do
    let (number, parked, memory) ← numberAt standIn x parked memory
    let (numbers, parked, memory) ← numbersAt standIn xs parked memory
    return (number :: numbers, parked, memory)

section StandingIn

variable [Add R] [Sub R] [Div R] [Neg R] [Scalar R]

/-- Forward differences of numbers, with nothing parked at first. -/
def forwardStandingIn (standIn h : R) (x : Vector R n) (memory : FirstFailure R) :
    Consultation R n (Except (OptimizationError R) (Vector R n) × FirstFailure R) := do
  let (numbers, parked, memory) ← numbersAt standIn (forwardPoints h x) none memory
  match parked with
  | some error => return (.error error, memory)
  | none => return (checkGradient n (forwardQuotients h numbers).toArray, memory)

/-- The gradient of the cost at `x`, where differences are those of numbers. -/
def gradientStandingIn (standIn h : R) (x : Vector R n) (memory : FirstFailure R) :
    Consultation R n (Except (OptimizationError R) (Vector R n) × FirstFailure R) :=
  .ask (.gradient x) fun
    | .ok g => .done ((checkGradient n g).map Arrow.neg, memory)
    | .error .gradientNotImplemented => do
      let (numbers, parked, memory) ← numbersAt standIn (centralPoints h x) none memory
      match parked, checkGradient n (centralQuotients h numbers).toArray with
      | none, .ok g => return (.ok g, memory)
      | _, _ => forwardStandingIn standIn h x memory
    | .error error => .done (.error error, memory.record error)

end StandingIn

/-- **Costs as numbers are the costs**, with numbers that stand in for those that are missing; the
first failure is parked, unless one was parked before. -/
theorem numbersAt_eq [Neg R] [Scalar R] (standIn : R) (points : List (Vector R n))
    (parked memory : FirstFailure R) :
    numbersAt standIn points parked memory = costsAt points memory >>= fun found =>
      .done (found.1.map (numberOr standIn), parked.or (found.1.findSome? errorIn?), found.2) := by
  induction points generalizing parked memory with
  | nil =>
      rw [numbersAt, costsAt, Dialogue.done_bind, List.map_nil, List.findSome?_nil, Option.or_none]
  | cons x xs ih =>
      rw [numbersAt, costsAt, numberAt, Dialogue.bind_assoc, Dialogue.bind_assoc]
      refine congrArg _ (funext fun found => ?_)
      obtain ⟨cost, memory⟩ := found
      rw [Dialogue.bind_assoc]
      cases cost with
      | ok cost =>
          dsimp only
          rw [Dialogue.pure_eq, Dialogue.done_bind, ih, Dialogue.bind_assoc]
          rfl
      | error error =>
          dsimp only
          rw [Dialogue.pure_eq, Dialogue.done_bind, ih, Dialogue.bind_assoc]
          refine congrArg _ (funext fun found => ?_)
          -- the failure is parked here, unless one was parked before, and stays so to the end
          have hparked : (parked.record error).or (found.1.findSome? errorIn?) =
              parked.or ((Except.error error :: found.1).findSome? errorIn?) := by
            rw [FirstFailure.record_eq_or, Option.or_assoc]
            rfl
          rw [Dialogue.done_bind, hparked]
          rfl

theorem map_numberOr_values (standIn : R) (values : List R) :
    (values.map Except.ok).map (numberOr standIn) = values := by
  rw [List.map_map]
  exact List.map_id values

section StandingIn

variable [Add R] [Sub R] [Div R] [Neg R] [Scalar R]

theorem forwardStandingIn_eq (standIn h : R) (x : Vector R n) (memory : FirstFailure R) :
    forwardStandingIn standIn h x memory = forwardGradient h x memory := by
  rw [forwardStandingIn, forwardGradient, numbersAt_eq, Dialogue.bind_assoc]
  refine congrArg _ (funext fun found => ?_)
  obtain ⟨costs, memory⟩ := found
  rw [Dialogue.done_bind, Option.none_or]
  rcases passValues_cases costs with ⟨error, hpass, hfirst⟩ | ⟨values, hpass, rfl⟩
  · dsimp only
    rw [hpass, hfirst]
  · dsimp only
    rw [hpass, findSome?_map_ok, map_numberOr_values]

/-- **No number that stands in is ever seen**: the evaluation with numbers is the evaluation with
results, whatever number it is. -/
theorem gradientStandingIn_eq (standIn h : R) (x : Vector R n) (memory : FirstFailure R) :
    gradientStandingIn standIn h x memory = gradientAt h x memory := by
  refine congrArg _ (funext fun answer => ?_)
  split
  · rfl
  · dsimp only
    rw [differenceGradient, numbersAt_eq, Dialogue.bind_assoc]
    refine congrArg _ (funext fun found => ?_)
    obtain ⟨costs, memory⟩ := found
    rw [Dialogue.done_bind, Option.none_or]
    rcases passValues_cases costs with ⟨error, hpass, hfirst⟩ | ⟨values, hpass, rfl⟩
    · dsimp only
      rw [hpass, hfirst, forwardStandingIn_eq]
    · dsimp only
      rw [hpass, findSome?_map_ok, map_numberOr_values]
      dsimp only
      cases hchecked : checkGradient n (centralQuotients h values).toArray with
      | error error =>
          -- nothing is parked, and still the second pass takes over
          exact forwardStandingIn_eq standIn h x memory
      | ok g => rfl
  · rename_i error hmissing
    cases error with
    | gradientNotImplemented => exact absurd rfl hmissing
    | _ => rfl

end StandingIn

/-! ### The evaluation -/

section Run

variable [Add R] [Sub R] [Div R] [Neg R] [Scalar R]

variable (respond : σ → (q : Consult R n) → q.Answer × σ) (h : R) (x : Vector R n)
  (memory : FirstFailure R) (s : σ)

theorem run_forwardGradient :
    let forward := answersAt respond (forwardPoints h x) s
    let events := passEvents (forwardPoints h x) forward.1
    (forwardGradient h x memory).run respond s =
      ⟨some (passOutcome (forwardQuotients h) forward.1, memory.or (firstFailure? events)),
        forward.2, events⟩ := by
  intro forward events
  rw [forwardGradient, Dialogue.run_bind, run_costsAt, Exchange.andThen, passOutcome]
  dsimp only
  cases hpass : passValues (forward.1.map costIn) with
  | error error =>
      dsimp only [Dialogue.pure_eq, Dialogue.run]
      rw [List.append_nil]
      rfl
  | ok costs =>
      dsimp only [Dialogue.pure_eq, Dialogue.run]
      rw [List.append_nil]
      rfl

/-- If the central pass does not succeed, a forward pass follows it. -/
theorem run_differenceGradient :
    let central := answersAt respond (centralPoints h x) s
    let events := passEvents (centralPoints h x) central.1
    (differenceGradient h x memory).run respond s =
      match (passOutcome (centralQuotients h) central.1 :
        Except (OptimizationError R) (Vector R n)) with
      | .ok g => ⟨some (.ok g, memory.or (firstFailure? events)), central.2, events⟩
      | .error _ =>
        let rest :=
          (forwardGradient h x (memory.or (firstFailure? events))).run respond central.2
        { rest with transcript := events ++ rest.transcript } := by
  intro central events
  rw [differenceGradient, Dialogue.run_bind, run_costsAt, Exchange.andThen, passOutcome]
  dsimp only
  cases hpass : passValues (central.1.map costIn) with
  | error error => rfl
  | ok costs =>
      dsimp only [Except.bind]
      cases hchecked : checkGradient n (centralQuotients h costs).toArray with
      | error error => rfl
      | ok g =>
          dsimp only [Dialogue.pure_eq, Dialogue.run]
          rw [List.append_nil]

/-- The central pass succeeds exactly if its outcome is a vector. -/
theorem centralOutcome_eq_ok_iff {g : Vector R n} :
    let answers := (answersAt respond (centralPoints h x) s).1
    passOutcome (centralQuotients h) answers = .ok g ↔
      PassSucceeds (CentralDifference h x answers) answers g :=
  (makeUp_centralDifference
    ((length_answersAt respond _ s).trans (length_centralPoints h x))).passOutcome_eq_ok_iff

/-- Without a gradient the evaluation is one by differences. -/
theorem run_gradientAt_of_missing
    (hmissing : (respond s (.gradient x)).1 = .error .gradientNotImplemented) :
    let rest := (differenceGradient h x memory).run respond (respond s (.gradient x)).2
    (gradientAt h x memory).run respond s =
      { rest with
        transcript := .answered (.gradient x) (.error .gradientNotImplemented) ::
          rest.transcript } := by
  rw [gradientAt, Dialogue.run_ask, hmissing]

/-- If the central pass succeeds, the evaluation ends with its vector. -/
theorem run_gradientAt_of_succeeds
    (hmissing : (respond s (.gradient x)).1 = .error .gradientNotImplemented) {g : Vector R n}
    (hg : let answers := (answersAt respond (centralPoints h x) (respond s (.gradient x)).2).1
      PassSucceeds (CentralDifference h x answers) answers g) :
    let central := answersAt respond (centralPoints h x) (respond s (.gradient x)).2
    ∃ memory', (gradientAt h x memory).run respond s =
      ⟨some (.ok g, memory'), central.2,
        .answered (.gradient x) (.error .gradientNotImplemented) ::
          passEvents (centralPoints h x) central.1⟩ := by
  have hout := (centralOutcome_eq_ok_iff respond h x (respond s (.gradient x)).2).2 hg
  rw [run_gradientAt_of_missing respond h x memory s hmissing, run_differenceGradient, hout]
  exact ⟨_, rfl⟩

/-- If it does not, the evaluation ends as a forward pass does. -/
theorem run_gradientAt_of_not_succeeds
    (hmissing : (respond s (.gradient x)).1 = .error .gradientNotImplemented)
    (hnot : let answers := (answersAt respond (centralPoints h x) (respond s (.gradient x)).2).1
      ¬∃ g, PassSucceeds (CentralDifference h x answers) answers g) :
    let central := answersAt respond (centralPoints h x) (respond s (.gradient x)).2
    let forward := answersAt respond (forwardPoints h x) central.2
    ∃ memory', (gradientAt h x memory).run respond s =
      ⟨some (passOutcome (forwardQuotients h) forward.1, memory'), forward.2,
        .answered (.gradient x) (.error .gradientNotImplemented) ::
          (passEvents (centralPoints h x) central.1 ++
            passEvents (forwardPoints h x) forward.1)⟩ := by
  intro central forward
  rw [run_gradientAt_of_missing respond h x memory s hmissing, run_differenceGradient]
  cases hout : (passOutcome (centralQuotients h) central.1 :
      Except (OptimizationError R) (Vector R n)) with
  | ok g => exact absurd ⟨g, (centralOutcome_eq_ok_iff respond h x _).1 hout⟩ hnot
  | error error =>
      dsimp only
      rw [run_forwardGradient]
      exact ⟨_, rfl⟩

/-- **What comes of an evaluation without a gradient.**  It ends with the central difference exactly
if the central pass succeeds.  Otherwise a forward pass follows and decides alone: the evaluation
ends with its vector if it succeeds and with its error if it fails.  Each pass asks for the values
at all its points, whatever is answered. -/
theorem gradient_by_differences
    (hmissing : (respond s (.gradient x)).1 = .error .gradientNotImplemented) :
    let central := answersAt respond (centralPoints h x) (respond s (.gradient x)).2
    let forward := answersAt respond (forwardPoints h x) central.2
    let asked := .answered (.gradient x) (.error .gradientNotImplemented) ::
      passEvents (centralPoints h x) central.1
    let CentralSucceeds := PassSucceeds (CentralDifference h x central.1) central.1
    let run := (gradientAt h x memory).run respond s
    central.1.length = (centralPoints h x).length ∧
      forward.1.length = (forwardPoints h x).length ∧
      ∃ outcome, run.result = some (outcome, memory.or (firstFailure? run.transcript)) ∧
        (∀ g, outcome = .ok g ∧ run.transcript = asked ↔ CentralSucceeds g) ∧
        ((∃ g, CentralSucceeds g) → run.state = central.2) ∧
        ((¬∃ g, CentralSucceeds g) → run.state = forward.2 ∧
          run.transcript = asked ++ passEvents (forwardPoints h x) forward.1 ∧
          (∀ g, outcome = .ok g ↔
            PassSucceeds (ForwardDifference h x forward.1) forward.1 g) ∧
          ∀ error, outcome = .error error ↔
            PassFails (ForwardDifference h x forward.1) forward.1 error) ∧
        ∀ standIn, gradientStandingIn standIn h x memory = gradientAt h x memory := by
  intro central forward asked CentralSucceeds run
  have hmemory {outcome : Except (OptimizationError R) (Vector R n)} {memory' : FirstFailure R}
      (hresult : run.result = some (outcome, memory')) :
      run.result = some (outcome, memory.or (firstFailure? run.transcript)) := by
    rw [hresult, tracks_gradientAt h x memory _ _ _ (Dialogue.unfolds_of_result_run hresult)]
  refine ⟨length_answersAt respond _ _, length_answersAt respond _ _, ?_⟩
  by_cases hsucceeds : ∃ g, CentralSucceeds g
  · obtain ⟨g, hg⟩ := hsucceeds
    obtain ⟨memory', hrun⟩ := run_gradientAt_of_succeeds respond h x memory s hmissing hg
    refine ⟨.ok g, hmemory (congrArg Exchange.result hrun), fun g' => ?_,
      fun _ => congrArg Exchange.state hrun, fun hnot => absurd ⟨g, hg⟩ hnot,
      fun standIn => gradientStandingIn_eq standIn h x memory⟩
    have hout := (centralOutcome_eq_ok_iff respond h x (respond s (.gradient x)).2).2 hg
    constructor
    · rintro ⟨⟨⟩, -⟩
      exact hg
    · intro hg'
      have hout' := (centralOutcome_eq_ok_iff respond h x (respond s (.gradient x)).2).2 hg'
      exact ⟨hout.symm.trans hout', congrArg Exchange.transcript hrun⟩
  · obtain ⟨memory', hrun⟩ :=
      run_gradientAt_of_not_succeeds respond h x memory s hmissing hsucceeds
    have hforward : MakeUp (forwardQuotients h) forward.1 (ForwardDifference h x forward.1) :=
      makeUp_forwardDifference
        ((length_answersAt respond _ central.2).trans (length_forwardPoints h x))
    have htranscript : run.transcript = asked ++ passEvents (forwardPoints h x) forward.1 :=
      congrArg Exchange.transcript hrun
    refine ⟨passOutcome (forwardQuotients h) forward.1, hmemory (congrArg Exchange.result hrun),
      fun g => ⟨?_, fun hg => absurd ⟨g, hg⟩ hsucceeds⟩, fun hg => absurd hg hsucceeds,
      fun _ => ⟨congrArg Exchange.state hrun, htranscript,
        fun g => hforward.passOutcome_eq_ok_iff, fun error => hforward.passOutcome_eq_error_iff⟩,
      fun standIn => gradientStandingIn_eq standIn h x memory⟩
    rintro ⟨-, hasked⟩
    -- a forward pass asks for at least one value
    have hnil := List.append_right_eq_self.1 (htranscript.symm.trans hasked)
    cases hanswers : forward.1 with
    | nil =>
        have hlen := length_answersAt respond (forwardPoints h x) central.2
        cases hlen.symm.trans (congrArg List.length hanswers)
    | cons answer answers =>
        rw [hanswers] at hnil
        cases hnil

end Run

/-- A respondent without a gradient whose first value fails, and which answers with its only
coordinate from then on. -/
def recovering : ℕ → (q : Consult Float 1) → q.Answer × ℕ
  | asked, .gradient _ => (.error .gradientNotImplemented, asked)
  | 0, .value .. => (.error (.objectiveFailed "not yet"), 1)
  | asked + 1, .value _ x => (.ok (x.get 0), asked + 2)

/-- The failure spoils the central pass, and the forward pass succeeds. -/
theorem gradient_by_differences_recovering :
    let run := (gradientAt 1 #v[0] none).run recovering 0
    run.result = some (.ok #v[-1], some (.objectiveFailed "not yet")) ∧ run.state = 4 ∧
      ∀ standIn : Float, gradientStandingIn standIn 1 #v[0] none = gradientAt 1 #v[0] none := by
  intro run
  obtain ⟨-, -, outcome, hresult, -, -, hforward, hstandIn⟩ :=
    gradient_by_differences recovering 1 #v[0] none 0 rfl
  obtain ⟨hstate, htranscript, hok, -⟩ := hforward fun ⟨g, hg⟩ => nomatch hg.unfailing
  have hsucceeds : outcome = .ok #v[-1] := by
    refine (hok #v[-1]).2 ⟨by decide +kernel, ⟨0, rfl, fun i => ⟨0 + 1, ?_, ?_⟩⟩, fun i => ?_⟩
    · obtain rfl := Fin.fin_one_eq_zero i
      rfl
    · obtain rfl := Fin.fin_one_eq_zero i
      decide +kernel
    · obtain rfl := Fin.fin_one_eq_zero i
      decide +kernel
  have hmemory : firstFailure? run.transcript = some (.objectiveFailed "not yet") := by
    rw [htranscript]
    rfl
  refine ⟨?_, hstate, hstandIn⟩
  rw [hresult, hsucceeds, hmemory, Option.none_or]

end MarkovLogic
