/-
**Numerical trouble during a run.**

An objective that never fails may still be undefined or infinite away from the start, and a search
may run into such places or lose its direction.  That is no error: a run that ends has learned
something, or says that it has stopped early.  There is one exception.  The points of a search are
not checked, and a step may overflow; if the objective is finite even there and larger than before,
then the best point has entries that are not finite, and the run refuses it as an estimate.

Main definitions:

* `Preparation.search` — the search that a run makes.

Main results:

* `Learner.learns_or_refuses_estimate` — **a run that ends has learned the best point of its search,
  or refuses it** if it has entries that are not finite;
* `Learner.overflow_refused` — a run that never meets a number that is not finite in a value or a
  gradient, and is refused its estimate.
-/
import MarkovLogic.Proofs.Learner.Ending
import MarkovLogic.Proofs.Learner.ReachableOptions
import MarkovLogic.Proofs.Solver.Outcomes
import MarkovLogic.Proofs.Solver.Unfailing

set_option autoImplicit false

namespace MarkovLogic

variable {n : Nat}

/-! ### The reduced objective -/

/-- The reduced objective never fails if the objective does not and its gradients have an entry for
each formula. -/
theorem Partition.unfailing_reducedObjective (p : Partition Float n) {o : Objective Float}
    (hvalue : ∀ w : Vector Float n, ∃ v, o.value w.toArray = .ok v)
    (hgradient : ∀ w : Vector Float n, ∃ g, o.gradient w.toArray = .ok g ∧ g.size = n) :
    (p.reducedObjective o).Unfailing p.freeCount where
  value x := by
    rw [p.value_reducedObjective]
    exact hvalue _
  gradient x := by
    obtain ⟨g, hg, hsize⟩ := hgradient (p.expand x)
    rw [p.gradient_reducedObjective, hg, p.liftAnswer_gradient_of_size x hsize]
    exact ⟨_, rfl⟩

/-- Finite entries of the right number make a gradient. -/
theorem exists_checkGradient_eq_ok {g : Array Float} (hsize : g.size = n)
    (hfinite : ∀ x ∈ g.toList, x.isFinite = true) : ∃ v, checkGradient n g = .ok v := by
  have hentries : firstNonFinite? g.toList = none := (firstNonFinite?_eq_none_iff _).2 hfinite
  rw [checkGradient, dif_pos hsize, hentries]
  exact ⟨_, rfl⟩

/-- The reduced objective is finite at the reduced start if the objective has a finite value and
finite free derivatives at the start. -/
theorem Partition.finiteAt_reducedObjective (p : Partition Float n) {o : Objective Float}
    {x : Vector Float p.freeCount} {v : Float} (hv : o.value (p.expand x).toArray = .ok v)
    (hfinite : v.isFinite = true) {g : Array Float}
    (hg : p.reduceGradient (o.gradient (p.expand x).toArray) = .ok g)
    (hgfinite : ∀ x ∈ g.toList, x.isFinite = true) : (p.reducedObjective o).FiniteAt x v := by
  have hgradient := (p.gradient_reducedObjective_eq_ok_iff o x g).2 hg
  refine ⟨(p.value_reducedObjective o x).trans hv, hfinite, g, hgradient, ?_⟩
  exact exists_checkGradient_eq_ok (Partition.size_of_gradient_eq_ok hgradient) hgfinite

/-! ### The run -/

/-- The search that a run over free weights makes on a memoryless objective. -/
def Preparation.search (p : Preparation n) (o : Objective Float) (level : LogLevel)
    (criteria : Criteria) (allowance : Nat) :
    Exchange (Consult Float p.partition.freeCount) Consult.Answer Unit
      (Except (OptimizationError Float) (QuasiNewton.Halt p.partition.freeCount) ×
        FirstFailure Float) :=
  (observedDescent level criteria allowance p.reduced).run (p.partition.reducedObjective o).respond
    ()

/-- **A run that ends succeeds or refuses its estimate.**  Let the options be reachable, let the
objective be memoryless, never fail and have gradients of the right length, and let the reduced
start be finite, as well as the value and the free derivatives at the start.  Then a run over free
weights that ends has asked what its search has asked, about expanded vectors, and the search has a
result: the best of its iterates, at which the objective's value is finite.  If this point has
finite entries, the run has learned it.  Otherwise the run ends with the error that names its first
entry that is not finite, and the value there is larger than at the start. -/
theorem Learner.learns_or_refuses_estimate {net : Network Float} (o : Objective Float)
    (hvalue : ∀ w : Vector Float net.formulaCount, ∃ v, o.value w.toArray = .ok v)
    (hgradient : ∀ w : Vector Float net.formulaCount,
      ∃ g, o.gradient w.toArray = .ok g ∧ g.size = net.formulaCount)
    {options : LearnOptions} (hoptions : options.Reachable) {p : Preparation net.formulaCount}
    (hp : prepare net o.mode options = .ok p) (hfree : p.partition.freeCount ≠ 0)
    (hstart : ∀ x ∈ p.reduced.toList, x.isFinite = true)
    {v : Float} (hv : o.value p.weights.toArray = .ok v) (hfinite : v.isFinite = true)
    {g : Array Float} (hg : p.partition.reduceGradient (o.gradient p.weights.toArray) = .ok g)
    (hgfinite : ∀ x ∈ g.toList, x.isFinite = true)
    (level : LogLevel) (allowance : Nat) (learner : Learner net.formulaCount)
    {after : Learner net.formulaCount}
    {r : Except (LearningError Float) (Learned net.formulaCount)}
    (h : ((run net o.mode .available level allowance options learner).run o.respond ()).result =
      some (after, r)) :
    ∃ criteria halt earlier last,
      options.settings.criteria p.partition.freeCount = .ok criteria ∧
      (p.search o level criteria allowance).result = some (.ok halt, none) ∧
      (∃ front body back, Silent front ∧ Silent back ∧
        ((run net o.mode .available level allowance options learner).run o.respond ()).transcript =
          front ++ body ++ back ∧
        List.Forall₂ (Relayed p.partition.liftQuestion p.partition.liftAnswer)
          (p.search o level criteria allowance).transcript body) ∧
      Searched level criteria allowance p.reduced (p.search o level criteria allowance).transcript
        none earlier last halt ∧
      QuasiNewton.BestOf (earlier ++ [last]) halt.bestPoint halt.bestCost ∧
      o.value (p.partition.expand halt.bestPoint).toArray = .ok (-halt.bestCost) ∧
      (-halt.bestCost).isFinite = true ∧
      (((∀ x ∈ halt.bestPoint.toList, x.isFinite = true) ∧ ∃ learned, r = .ok learned ∧
          learned.weights = p.partition.expand halt.bestPoint ∧
          learned.diagnostics.logLikelihood = -halt.bestCost) ∨
        ∃ index entry, firstNonFinite? halt.bestPoint.toList = some (index, entry) ∧
          r = .error (.optimization
            (.invalidEstimate index entry "Parameter estimates must be finite.")) ∧
          v < -halt.bestCost) := by
  obtain ⟨front, body, back, inner, ended, hfront, hback, hevents, hrelayed, hheard, hinner, hr⟩ :=
    exists_maximize_of_result hp hfree h
  -- start and tolerances are accepted
  have hpoint : checkStart p.reduced.toArray = .ok () := by
    have hentries : firstNonFinite? p.reduced.toArray.toList = none :=
      (firstNonFinite?_eq_none_iff _).2 hstart
    rw [checkStart, hentries]
  have hsettings : p.options = options := by
    obtain ⟨_, _, -, -, -, heq⟩ := exists_of_prepare hp
    rw [heq]
  obtain ⟨criteria, hcriteria⟩ := hoptions.valid.exists_criteria p.partition.freeCount
  rw [hsettings] at hinner
  have hunfailing := p.partition.unfailing_reducedObjective hvalue hgradient
  have hreduced := p.partition.finiteAt_reducedObjective hv hfinite hg hgfinite
  obtain ⟨course, notes, halt, rfl, hnotes, hdescent, hbest, hended⟩ :=
    hunfailing.exists_of_unfolds_maximize hpoint hcriteria hreduced hinner hheard
  -- behind the search the maximisation only records
  obtain ⟨body, behind, hbody, hbehind, rfl⟩ := exists_append_of_relayed hrelayed
  have hsearch : p.search o level criteria allowance = ⟨some (.ok halt, none), (), course⟩ :=
    Objective.run_respond_eq hdescent (admitted_append.1 hheard).1
  obtain ⟨earlier, last, hsearched⟩ := exists_searched_of_unfolds_observedDescent hdescent
  refine ⟨criteria, halt, earlier, last, hcriteria, ?_⟩
  rw [hsearch]
  refine ⟨rfl, ⟨front, body, behind ++ back, hfront, (hnotes.relayed hbehind).append hback,
    by rw [hevents]; simp, hbody⟩, hsearched, hsearched.bestOf, ?_, hbest.finite, ?_⟩
  · rw [← p.partition.value_reducedObjective]
    exact hbest.value
  · rcases hended with ⟨hentries, outcome, rfl, hestimate, houtcome⟩ |
      ⟨index, entry, hentry, rfl, hlarger⟩
    · cases hr
      refine .inl ⟨hentries, _, rfl, ?_, houtcome⟩
      rw [← hestimate]
      rfl
    · cases hr
      exact .inr ⟨index, entry, hentry, rfl, hlarger⟩

/-! ### Runs into trouble -/

/-- A slope up to a cliff, beyond which nothing is defined. -/
def cliff : Objective Float where
  value w := let x := w.toList.headD 0; .ok (if x < 0.5 then x else 0.0 / 0.0)
  gradient w := .ok (w.map fun _ => 1)

/-- A run that steps over the cliff has stopped early, and succeeds with the best point of its
search. -/
theorem Learner.learns_or_refuses_estimate_cliff :
    ∃ p after learned criteria halt, prepare oneFree .hard .standard = .ok p ∧
      p.partition.freeCount ≠ 0 ∧ (∀ x ∈ p.reduced.toList, x.isFinite = true) ∧
      cliff.value p.weights.toArray = .ok 0 ∧
      p.partition.reduceGradient (cliff.gradient p.weights.toArray) = .ok #[1] ∧
      ((run oneFree .hard .available .off 5 .standard (.fresh 1)).run cliff.respond ()).result =
        some (after, .ok learned) ∧ learned.diagnostics.verdict = .stoppedEarly ∧
      (p.search cliff .off criteria 5).result = some (.ok halt, none) ∧
      learned.weights = p.partition.expand halt.bestPoint := by
  have hprepared : ((prepare oneFree .hard .standard).toOption.any fun p =>
      decide (p.partition.freeCount ≠ 0 ∧ (∀ x ∈ p.reduced.toList, x.isFinite = true) ∧
        (cliff.value p.weights.toArray).toOption = some 0 ∧
        (p.partition.reduceGradient (cliff.gradient p.weights.toArray)).toOption =
          some #[1])) = true := by
    decide +kernel
  have hended : (((run oneFree .hard .available .off 5 .standard (.fresh 1)).run
      cliff.respond ()).result.any fun r => match r.2 with
        | .ok learned => decide (learned.diagnostics.verdict = .stoppedEarly)
        | .error (.optimization (.invalidEstimate ..)) => false
        | .error _ => true) = true := by
    decide +kernel
  obtain ⟨p, hp, hfacts⟩ := exists_ok_of_any hprepared
  obtain ⟨hfree, hstart, hvalue, hgradient⟩ := of_decide_eq_true hfacts
  obtain ⟨⟨after, r⟩, hr, hverdict⟩ := (Option.any_eq_true _ _).1 hended
  obtain ⟨criteria, halt, -, -, -, hsearch, -, -, -, -, -, hended⟩ :=
    Learner.learns_or_refuses_estimate cliff (fun _ => ⟨_, rfl⟩) (fun w => ⟨_, rfl, by simp⟩)
      .standard hp hfree hstart (toOption_eq_some_iff.1 hvalue) (by decide +kernel)
      (toOption_eq_some_iff.1 hgradient) (by decide +kernel) .off 5 (.fresh 1) hr
  rcases hended with ⟨-, learned, rfl, hweights, -⟩ | ⟨index, entry, -, rfl, -⟩
  · exact ⟨p, after, learned, criteria, halt, hp, hfree, hstart, toOption_eq_some_iff.1 hvalue,
      toOption_eq_some_iff.1 hgradient, hr, of_decide_eq_true hverdict, hsearch, hweights⟩
  · cases hverdict

/-- Flat ground with a slope that is far too steep, and a step up where a weight has overflowed. -/
def overflowing : Objective Float where
  value w := .ok (if w.toList.all Float.isFinite then 0 else 1)
  gradient w := .ok (w.map fun x => if x.isFinite then 1e305 else 0)

/-- The options of a caller who asks for the line search by secant steps. -/
def bySecants : LearnOptions := ⟨false, { Settings.standard with lineSearch := .hagerZhang }⟩

theorem reachable_bySecants : bySecants.Reachable := by
  have hsearch : LineSearch.ofName "HagerZhang" = .ok .hagerZhang := by
    have hsmall : "HagerZhang".map Char.toLower = "hagerzhang" := by decide +kernel
    unfold LineSearch.ofName
    rw [hsmall]
    rfl
  have hset : LearnOptions.standard.setAll [("line_search", "HagerZhang")] = .ok bySecants := by
    change LearnOptions.standard.setKey "line_search" "HagerZhang" .lineSearch >>= _ = _
    unfold LearnOptions.setKey
    rw [hsearch]
    rfl
  exact LearnOptions.Reachable.standard.setAll hset

/-- **A run may be refused its estimate** although the objective never fails and never has a value
or a derivative that is not finite: the tiny first step of the search by secants leads to a finite
point, the huge one overflows, and is better. -/
theorem Learner.overflow_refused :
    (∀ w : Vector Float 1, ∃ v, overflowing.value w.toArray = .ok v ∧ v.isFinite = true) ∧
    (∀ w : Vector Float 1, ∃ g, overflowing.gradient w.toArray = .ok g ∧ g.size = 1 ∧
      ∀ x ∈ g.toList, x.isFinite = true) ∧
    bySecants.Reachable ∧
    ∃ p after, prepare oneFree .hard bySecants = .ok p ∧ p.partition.freeCount ≠ 0 ∧
      (∀ x ∈ p.reduced.toList, x.isFinite = true) ∧
      ((run oneFree .hard .available .off 10 bySecants (.fresh 1)).run
        overflowing.respond ()).result =
          some (after, .error (.optimization
            (.invalidEstimate 0 (1.0 / 0.0) "Parameter estimates must be finite."))) := by
  have hprepared : ((prepare oneFree .hard bySecants).toOption.any fun p =>
      decide (p.partition.freeCount ≠ 0 ∧
        ∀ x ∈ p.reduced.toList, x.isFinite = true)) = true := by
    decide +kernel
  have hended : (((run oneFree .hard .available .off 10 bySecants (.fresh 1)).run
      overflowing.respond ()).result.any fun r => match r.2 with
        | .error (.optimization (.invalidEstimate index entry reason)) =>
          decide (index = 0 ∧ entry = 1.0 / 0.0 ∧ reason = "Parameter estimates must be finite.")
        | _ => false) = true := by
    decide +kernel
  obtain ⟨p, hp, hfacts⟩ := exists_ok_of_any hprepared
  obtain ⟨hfree, hstart⟩ := of_decide_eq_true hfacts
  refine ⟨fun w => ?_, fun w => ?_, reachable_bySecants, p, ?_⟩
  · refine ⟨_, rfl, ?_⟩
    split <;> decide +kernel
  · refine ⟨_, rfl, by simp, fun x hx => ?_⟩
    rw [Array.toList_map] at hx
    obtain ⟨y, -, rfl⟩ := List.mem_map.1 hx
    split <;> decide +kernel
  · obtain ⟨⟨after, r⟩, hr, hrefused⟩ := (Option.any_eq_true _ _).1 hended
    refine ⟨after, hp, hfree, hstart, hr.trans (congrArg some (congrArg (Prod.mk after) ?_))⟩
    revert hrefused
    dsimp only
    split
    · intro hrefused
      obtain ⟨rfl, rfl, rfl⟩ := of_decide_eq_true hrefused
      rfl
    · intro hrefused
      cases hrefused

end MarkovLogic
