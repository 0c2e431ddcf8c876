/-
**Only which formulas are listed matters.**

A network lists the formulas whose weight is to be fixed, in some order and possibly more than once.
The weight of a formula depends on its groundings alone, so a formula that is listed again gets the
same weight again, and a table does not show the order in which it was filled.  Two networks that
differ only in the order and the repetitions of their lists therefore have the same fixed weights,
the same partition and the same runs.  Only where some weight cannot be derived, the order decides
which of the errors is reported.

Main definitions:

* `Network.fixing` — the network with another list of formulas to be fixed.

Main results:

* `Network.find?_of_fixedWeights` — what a derived table answers;
* `Network.fixedWeights_fixing_eq_ok_iff` — **the derived table depends on the listed formulas
  alone**;
* `Learner.same_run_for_same_formulas` — **so do the partition and every run**.
-/
import MarkovLogic.Proofs.Learner.KeptWeights
import MarkovLogic.Proofs.Weights.Derivation

set_option autoImplicit false

namespace MarkovLogic

/-! ### Tables -/

namespace Network

/-- The network with other formulas to be fixed. -/
@[reducible] def fixing {R : Type} [Zero R] [One R] (net : Network R) (list : List Nat) :
    Network R :=
  { net with fixedFormulas := list }

section Table

variable {R : Type} [Zero R] [One R] [Add R] [Scalar R] [Div R] [ExpLog R] {net : Network R}
  {mode : EvidenceMode} {list list' : List Nat}

/-- The weight of a formula does not depend on the list. -/
theorem fixFormula_fixing (net : Network R) (list : List Nat) (mode : EvidenceMode)
    (i : Nat) : (net.fixing list).fixFormula mode i = net.fixFormula mode i := rfl

/-- A derived table has the weight that is derived for a formula if the formula is listed, and none
otherwise. -/
theorem find?_of_fixedWeights {fixed : FixedWeights R} (h : net.fixedWeights mode = .ok fixed)
    (i : Nat) :
    fixed.find? i =
      if i ∈ net.fixedFormulas then (net.fixFormula mode i).toOption.map (·.weight) else none := by
  split
  · rename_i hi
    obtain ⟨weight, hweight⟩ := net.exists_find?_of_fixedWeights h hi
    obtain ⟨f, hf, rfl⟩ := net.exists_fixFormula_of_find? h hweight
    rw [hweight, hf]
    rfl
  · rename_i hi
    refine Option.eq_none_iff_forall_ne_some.2 fun weight hweight => hi ?_
    exact net.mem_fixedFormulas_of_find? h hweight

/-- A table that is derived for one list is derived for every list of the same formulas. -/
theorem fixedWeights_fixing_eq_ok (hsame : ∀ i, i ∈ list ↔ i ∈ list') {fixed : FixedWeights R}
    (h : (net.fixing list).fixedWeights mode = .ok fixed) :
    (net.fixing list').fixedWeights mode = .ok fixed := by
  have hall := exists_fixedWeights_iff.1 ⟨fixed, h⟩
  obtain ⟨fixed', h'⟩ : ∃ fixed', (net.fixing list').fixedWeights mode = .ok fixed' :=
    exists_fixedWeights_iff.2 fun i hi => hall i ((hsame i).2 hi)
  have heq : fixed' = fixed := FixedWeights.ext_find? fun i => by
    rw [find?_of_fixedWeights h, find?_of_fixedWeights h', fixFormula_fixing, fixFormula_fixing]
    exact if_congr (hsame i).symm rfl rfl
  rw [h', heq]

/-- **The derived table depends on the listed formulas alone.** -/
theorem fixedWeights_fixing_eq_ok_iff (hsame : ∀ i, i ∈ list ↔ i ∈ list')
    {fixed : FixedWeights R} :
    (net.fixing list).fixedWeights mode = .ok fixed ↔
      (net.fixing list').fixedWeights mode = .ok fixed :=
  ⟨fixedWeights_fixing_eq_ok hsame, fixedWeights_fixing_eq_ok fun i => (hsame i).symm⟩

end Table

/-! ### Preparations -/

variable {net : Network Float} {mode : EvidenceMode} {list list' : List Nat}

/-- If the fixed weights are the same, so is the partition, or the reason why there is none. -/
theorem derivePartition_fixing_eq {fixed : FixedWeights Float}
    (h : (net.fixing list).fixedWeights mode = .ok fixed)
    (h' : (net.fixing list').fixedWeights mode = .ok fixed) :
    derivePartition (net.fixing list) mode = derivePartition (net.fixing list') mode := by
  rw [derivePartition, derivePartition, h, h']

theorem prepare_fixing_eq
    (h : derivePartition (net.fixing list) mode = derivePartition (net.fixing list') mode)
    (options : LearnOptions) :
    prepare (net.fixing list) mode options = prepare (net.fixing list') mode options := by
  have hstart : startingWeights (net.fixing list) options =
      startingWeights (net.fixing list') options := rfl
  rw [prepare, prepare, hstart, h]

/-- Without the fixed weights there is no preparation. -/
theorem exists_prepare_eq_error {net : Network Float} {error : LearningError Float}
    (h : net.fixedWeights mode = .error error) (options : LearnOptions) :
    ∃ error', prepare net mode options = .error error' := by
  cases hp : prepare net mode options with
  | error error' => exact ⟨error', rfl⟩
  | ok p =>
      obtain ⟨-, fixed, -, hfixed, -⟩ := exists_of_prepare hp
      cases h.symm.trans hfixed

end Network

/-! ### Runs -/

/-- A run depends on what it prepares alone. -/
theorem Learner.result_run_fixing_eq {net : Network Float} {mode : EvidenceMode}
    {list list' : List Nat} {options : LearnOptions}
    (h : prepare (net.fixing list) mode options = prepare (net.fixing list') mode options)
    (backend : Backend) (level : LogLevel) (allowance : Nat) (learner : Learner net.formulaCount)
    {σ : Type} (respond : σ → (q : Consult Float net.formulaCount) → q.Answer × σ) (s : σ) :
    ((Learner.run (net.fixing list) mode backend level allowance options learner).run
        respond s).result =
      ((Learner.run (net.fixing list') mode backend level allowance options learner).run
        respond s).result := by
  cases backend with
  | unavailable => rfl
  | available =>
      cases hp : prepare (net.fixing list) mode options with
      | error error =>
          rw [result_run_of_unprepared hp, result_run_of_unprepared (h.symm.trans hp)]
      | ok p => rw [result_run_of_prepare hp, result_run_of_prepare (h.symm.trans hp)]

/-- **Only which formulas are listed matters**, neither their order nor how often each is listed.
The fixed weights can be derived for both lists or for neither.  If they can, they are the same, and
so are the partition, or the reason why there is none, and the result of every run with the learner
that it leaves behind, whoever answers.  If they cannot, both runs fail, and the learners that they
leave behind are still the same. -/
theorem Learner.same_run_for_same_formulas {list list' : List Nat}
    (hsame : ∀ i, i ∈ list ↔ i ∈ list') (net : Network Float) (mode : EvidenceMode) :
    (∀ fixed, (net.fixing list).fixedWeights mode = .ok fixed ↔
      (net.fixing list').fixedWeights mode = .ok fixed) ∧
    ((∃ fixed, (net.fixing list).fixedWeights mode = .ok fixed) →
      derivePartition (net.fixing list) mode = derivePartition (net.fixing list') mode) ∧
    ∀ (backend : Backend) (level : LogLevel) (allowance : Nat) (options : LearnOptions)
      (learner : Learner net.formulaCount) {σ : Type}
      (respond : σ → (q : Consult Float net.formulaCount) → q.Answer × σ) (s : σ),
      let result (list : List Nat) :=
        ((Learner.run (net.fixing list) mode backend level allowance options learner).run
          respond s).result
      ((∃ fixed, (net.fixing list).fixedWeights mode = .ok fixed) → result list = result list') ∧
      (¬(∃ fixed, (net.fixing list).fixedWeights mode = .ok fixed) → backend = .available →
        ∃ error error', result list = some (learner.fail error) ∧
          result list' = some (learner.fail error')) ∧
      (result list).map (·.1) = (result list').map (·.1) := by
  have htable : ∀ fixed, (net.fixing list).fixedWeights mode = .ok fixed ↔
      (net.fixing list').fixedWeights mode = .ok fixed :=
    fun fixed => Network.fixedWeights_fixing_eq_ok_iff hsame
  have hpartition : (∃ fixed, (net.fixing list).fixedWeights mode = .ok fixed) →
      derivePartition (net.fixing list) mode = derivePartition (net.fixing list') mode := by
    rintro ⟨fixed, hfixed⟩
    exact Network.derivePartition_fixing_eq hfixed ((htable fixed).1 hfixed)
  refine ⟨htable, hpartition, fun backend level allowance options learner σ respond s => ?_⟩
  intro result
  have hderived : (∃ fixed, (net.fixing list).fixedWeights mode = .ok fixed) →
      result list = result list' := fun h =>
    result_run_fixing_eq (Network.prepare_fixing_eq (hpartition h) options) backend level allowance
      learner respond s
  have hunderived : ¬(∃ fixed, (net.fixing list).fixedWeights mode = .ok fixed) →
      backend = .available → ∃ error error', result list = some (learner.fail error) ∧
        result list' = some (learner.fail error') := by
    rintro hnone rfl
    have hfails (l : List Nat) (hl : ¬∃ fixed, (net.fixing l).fixedWeights mode = .ok fixed) :
        ∃ error, result l = some (learner.fail error) := by
      cases hfixed : (net.fixing l).fixedWeights mode with
      | ok fixed => exact absurd ⟨fixed, hfixed⟩ hl
      | error error =>
          obtain ⟨error', hp⟩ := Network.exists_prepare_eq_error hfixed options
          exact ⟨error', result_run_of_unprepared hp respond level allowance learner s⟩
    obtain ⟨error, hlist⟩ := hfails list hnone
    obtain ⟨error', hlist'⟩ := hfails list' fun ⟨fixed, h⟩ => hnone ⟨fixed, (htable fixed).2 h⟩
    exact ⟨error, error', hlist, hlist'⟩
  refine ⟨hderived, hunderived, ?_⟩
  by_cases h : ∃ fixed, (net.fixing list).fixedWeights mode = .ok fixed
  · rw [hderived h]
  · cases backend with
    | unavailable => rfl
    | available =>
        obtain ⟨error, error', hlist, hlist'⟩ := hunderived h rfl
        rw [hlist, hlist']
        rfl

/-- Two formulas, the second listed twice and in front of the first, make the same run as the two in
order, and it succeeds. -/
theorem Learner.same_run_for_same_formulas_halfFixed :
    let result (list : List Nat) :=
      ((Learner.run (halfFixed.fixing list) .hard .available .off 0 .standard (.fresh 2)).run
        flat.respond ()).result
    (∀ i, i ∈ [1, 0, 1] ↔ i ∈ [0, 1]) ∧
      (∃ fixed, (halfFixed.fixing [1, 0, 1]).fixedWeights .hard = .ok fixed) ∧
      result [1, 0, 1] = result [0, 1] ∧ (result [1, 0, 1]).any (·.2.isOk) = true := by
  intro result
  have hsame : ∀ i, i ∈ [1, 0, 1] ↔ i ∈ [0, 1] := by
    intro i
    simp only [List.mem_cons, List.not_mem_nil, or_false]
    omega
  have hfixed : ∃ fixed, (halfFixed.fixing [1, 0, 1]).fixedWeights .hard = .ok fixed := ⟨_, rfl⟩
  obtain ⟨-, -, hrun⟩ := same_run_for_same_formulas hsame halfFixed .hard
  refine ⟨hsame, hfixed, ?_, by decide +kernel⟩
  exact (hrun .available .off 0 .standard (.fresh 2) flat.respond ()).1 hfixed

end MarkovLogic
