/-
**Learning the reduced problem.**

A learner that keeps some weights fixed maximises over the free ones.  This module shows that it
does nothing else: its run ends as the run of a learner of the free formulas alone, on the objective
of the free weights alone, and the weights it learns are those of that run, expanded.  Neither the
starting weights of fixed formulas nor the derivatives by fixed weights have any part in it.

Main definitions:

* `Partition.reducedObjective` — an objective over all weights as one over the free weights;
* `Objective.AgreesAt` — two objectives with the same answers at all vectors of a length;
* `Learned.expand` — what is learned over the free weights as learned over all weights.

Main results:

* `hear_respond` — a learner's maximisation hears the reduced objective;
* `map_bare_result_run_optimize` — what a maximisation ends with depends on the reduced problem
  alone;
* `Learner.result_eq_reduced_result` — **a run ends as the run on the reduced problem**.
-/
import MarkovLogic.Proofs.Learner.KeptWeights

set_option autoImplicit false

namespace MarkovLogic

variable {n m : Nat}

/-! ### The reduced objective -/

/-- The objective of the free weights alone: value and gradient at the expanded vector, of the
gradient the free entries. -/
def Partition.reducedObjective (p : Partition Float n) (o : Objective Float) : Objective Float where
  value r :=
    match p.expand? r with
    | .error error => .error error.toOptimization
    | .ok full => o.value full.toArray
  gradient r :=
    match p.expand? r with
    | .error error => .error error.toOptimization
    | .ok full => (p.reduceGradient (o.gradient full.toArray)).mapError LearningError.toOptimization
  mode := o.mode

theorem Partition.value_reducedObjective (p : Partition Float n) (o : Objective Float)
    (x : Vector Float p.freeCount) :
    (p.reducedObjective o).value x.toArray = o.value (p.expand x).toArray := by
  simp only [reducedObjective, p.expand?_toArray]

theorem Partition.gradient_reducedObjective (p : Partition Float n) (o : Objective Float)
    (x : Vector Float p.freeCount) :
    (p.reducedObjective o).gradient x.toArray =
      p.liftAnswer (.gradient x) (o.gradient (p.expand x).toArray) := by
  simp only [reducedObjective, p.expand?_toArray]
  rfl

/-- The reduced objective answers as the objective does about expanded vectors. -/
theorem Partition.answer_reducedObjective (p : Partition Float n) (o : Objective Float)
    (q : Consult Float p.freeCount) :
    (p.reducedObjective o).answer q = p.liftAnswer q (o.answer (p.liftQuestion q)) := by
  cases q with
  | value purpose x => exact p.value_reducedObjective o x
  | gradient x => exact p.gradient_reducedObjective o x

/-- **A learner's maximisation hears the reduced objective.** -/
theorem hear_respond (p : Partition Float n) (o : Objective Float) :
    Dialogue.hear p.liftQuestion p.liftAnswer o.respond = (p.reducedObjective o).respond := by
  funext s q
  exact congrArg (·, ()) (p.answer_reducedObjective o q).symm

/-- A gradient of the reduced objective has an entry for each free weight. -/
theorem Partition.size_of_gradient_eq_ok {p : Partition Float n} {o : Objective Float}
    {x : Vector Float p.freeCount} {g : Array Float}
    (h : (p.reducedObjective o).gradient x.toArray = .ok g) : g.size = p.freeCount := by
  rw [p.gradient_reducedObjective] at h
  cases hanswer : o.gradient (p.expand x).toArray with
  | error error =>
      rw [hanswer] at h
      cases h
  | ok full =>
      rw [hanswer] at h
      by_cases hfull : full.size = n
      · rw [p.liftAnswer_gradient_of_size x hfull] at h
        cases h
        exact Vector.size_toArray _
      · rw [p.liftAnswer_gradient_of_size_ne x hfull] at h
        cases h

/-! ### Agreement -/

/-- The same answers at all vectors of length `n`. -/
def Objective.AgreesAt (n : Nat) (o o' : Objective Float) : Prop :=
  ∀ x : Vector Float n, o.value x.toArray = o'.value x.toArray ∧
    o.gradient x.toArray = o'.gradient x.toArray

theorem Objective.AgreesAt.symm {o o' : Objective Float} (h : AgreesAt n o o') :
    AgreesAt n o' o :=
  fun x => ⟨(h x).1.symm, (h x).2.symm⟩

theorem Objective.AgreesAt.respond_eq {o o' : Objective Float} (h : AgreesAt n o o') :
    (o.respond : Unit → (q : Consult Float n) → q.Answer × Unit) = o'.respond := by
  funext s q
  cases q with
  | value purpose x => exact congrArg (·, ()) (h x).1
  | gradient x => exact congrArg (·, ()) (h x).2

/-- Without fixed weights the reduced objective is the objective, if its gradients have one entry
for each weight. -/
theorem Partition.agreesAt_reducedObjective {p : Partition Float m} (hp : p.isIdentity = true)
    {o : Objective Float}
    (ho : ∀ (x : Vector Float m) g, o.gradient x.toArray = .ok g → g.size = m) :
    Objective.AgreesAt p.freeCount (p.reducedObjective o) o := by
  intro x
  have hexpand : (p.expand x).toArray = x.toArray := toArray_expand hp x
  constructor
  · rw [p.value_reducedObjective, hexpand]
  · rw [p.gradient_reducedObjective]
    cases hg : o.gradient (p.expand x).toArray with
    | error error =>
        rw [← hexpand, hg]
        rfl
    | ok g =>
        rw [p.liftAnswer_gradient_of_size x (ho _ g hg), toArray_reduce hp, ← hexpand, hg]

/-! ### The maximisation -/

/-- The end of a learner's maximisation, its weights as an array of some length. -/
def bare (r : Except (LearningError Float) (Vector Float n × Diagnostics)) :
    Except (LearningError Float) (Array Float × Diagnostics) :=
  r.map fun found => (found.1.toArray, found.2)

/-- With a memoryless objective a learner's maximisation over free weights is one of the reduced
objective. -/
theorem result_run_optimize_respond (level : LogLevel) (allowance : Nat) (p : Preparation n)
    (o : Objective Float) (hfree : p.partition.freeCount ≠ 0) :
    ((optimize level allowance p).run o.respond ()).result =
      ((maximize level p.options.settings allowance p.reduced).run
        (p.partition.reducedObjective o).respond ()).result.map learnedFrom := by
  rw [result_run_optimize _ _ _ _ hfree, Partition.lift, (Dialogue.run_relay ..).1, hear_respond]

/-- Without free weights it is the reduced objective's value. -/
theorem result_run_optimize_of_freeCount_eq_zero (level : LogLevel) (allowance : Nat)
    (p : Preparation n) (o : Objective Float) (hfree : p.partition.freeCount = 0) :
    ((optimize level allowance p).run o.respond ()).result =
      some (learnedAt p.reduced ((p.partition.reducedObjective o).value p.reduced.toArray)) := by
  rw [optimize_of_freeCount_eq_zero _ _ _ hfree, p.partition.value_reducedObjective]
  rfl

/-- Maximisations over equally many weights end alike if they start from the same weights and the
objectives agree. -/
theorem map_bare_result_run_maximize (level : LogLevel) (settings : Settings) (allowance : Nat)
    {x : Vector Float n} {y : Vector Float m} (hlength : n = m) (hstart : x.toArray = y.toArray)
    {o o' : Objective Float} (ho : Objective.AgreesAt n o o') :
    ((maximize level settings allowance x).run o.respond ()).result.map (fun r =>
        bare (learnedFrom r)) =
      ((maximize level settings allowance y).run o'.respond ()).result.map fun r =>
        bare (learnedFrom r) := by
  subst hlength
  obtain rfl := Vector.toArray_inj.1 hstart
  rw [ho.respond_eq]

/-- **What a maximisation ends with depends on the reduced problem alone**: on the number of free
weights, the reduced start, the settings, and the reduced objective. -/
theorem map_bare_result_run_optimize (level : LogLevel) (allowance : Nat) (p : Preparation n)
    (p' : Preparation m) {o o' : Objective Float}
    (hfree : p.partition.freeCount = p'.partition.freeCount)
    (hreduced : p.reduced.toArray = p'.reduced.toArray)
    (hsettings : p.options.settings = p'.options.settings)
    (ho : Objective.AgreesAt p.partition.freeCount (p.partition.reducedObjective o)
      (p'.partition.reducedObjective o')) :
    ((optimize level allowance p).run o.respond ()).result.map bare =
      ((optimize level allowance p').run o'.respond ()).result.map bare := by
  by_cases hzero : p.partition.freeCount = 0
  · rw [result_run_optimize_of_freeCount_eq_zero _ _ _ _ hzero,
      result_run_optimize_of_freeCount_eq_zero _ _ _ _ (hfree ▸ hzero), (ho p.reduced).1, hreduced]
    -- the weights of both ends are the reduced start
    cases (p'.partition.reducedObjective o').value p'.reduced.toArray with
    | error error => rfl
    | ok value => simp [bare, learnedAt, Except.map, hreduced]
  · rw [result_run_optimize_respond _ _ _ _ hzero,
      result_run_optimize_respond _ _ _ _ (hfree ▸ hzero), Option.map_map, Option.map_map,
      hsettings]
    exact map_bare_result_run_maximize level p'.options.settings allowance hfree hreduced ho

/-! ### The run -/

/-- If nothing is to be fixed, the partition has no fixed slots. -/
theorem exists_derivePartition_of_fixedFormulas_eq_nil {net : Network Float}
    (h : net.fixedFormulas = []) (mode : EvidenceMode) :
    ∃ p, derivePartition net mode = .ok p ∧ p.isIdentity = true := by
  have hfixed : net.fixedWeights mode = .ok FixedWeights.empty := by
    rw [Network.fixedWeights, h]
    rfl
  obtain ⟨p, hp⟩ : ∃ p, Partition.ofFixed net.formulaCount FixedWeights.empty = .ok p := ⟨_, rfl⟩
  refine ⟨p, ?_, Partition.isIdentity_of_ofFixed_empty hp⟩
  rw [derivePartition, hfixed]
  exact hp

/-- The reduced network starts from the reduced start: from the free ones of the weights, or from
zero. -/
theorem exists_startingWeights {net net' : Network Float} {options : LearnOptions}
    {p : Partition Float net.formulaCount} (hcount : net'.formulaCount = p.freeCount)
    (hweights : options.useInitialWeights = true → ∃ w, net.currentWeights = .ok w ∧
      net'.currentWeights = .ok ((p.reduce w).cast hcount.symm)) :
    ∃ start, startingWeights net options = .ok start ∧
      startingWeights net' options = .ok ((p.reduce start).cast hcount.symm) := by
  unfold startingWeights
  by_cases huse : options.useInitialWeights = true
  · obtain ⟨w, hw, hw'⟩ := hweights huse
    rw [if_pos huse, if_pos huse, hw, hw']
    exact ⟨w, rfl, rfl⟩
  · rw [if_neg huse, if_neg huse]
    refine ⟨_, rfl, congrArg _ (Vector.toArray_inj.1 ?_)⟩
    rw [Vector.toArray_cast, p.reduce_replicate]
    simp [hcount]

/-- Learned free weights as learned weights: the fixed ones are put back. -/
def Learned.expand (p : Partition Float n) (hcount : m = p.freeCount) (learned : Learned m) :
    Learned n :=
  ⟨p.expand (learned.weights.cast hcount), learned.diagnostics⟩

/-- What determines one view of two possible values determines another. -/
theorem map_eq_map_of_imp {α β γ δ : Type} {x : Option α} {y : Option β} {f : α → γ} {g : β → γ}
    {f' : α → δ} {g' : β → δ} (h : x.map f = y.map g) (hfg : ∀ a b, f a = g b → f' a = g' b) :
    x.map f' = y.map g' := by
  cases x with
  | none =>
      cases y with
      | none => rfl
      | some b => cases h
  | some a =>
      cases y with
      | none => cases h
      | some b => exact congrArg some (hfg a b (Option.some.inj h))

/-- Ends of two maximisations with the same free weights make runs end alike, up to expansion. -/
theorem Learner.conclude_eq_map_expand {p : Preparation n} {p' : Preparation m}
    (hcount : m = p.partition.freeCount) (hp' : p'.partition.isIdentity = true)
    (learner : Learner n) (learner' : Learner m)
    {r : Except (LearningError Float) (Vector Float p.partition.freeCount × Diagnostics)}
    {r' : Except (LearningError Float) (Vector Float p'.partition.freeCount × Diagnostics)}
    (h : bare r = bare r') :
    (learner.conclude p r).2 =
      (learner'.conclude p' r').2.map (Learned.expand p.partition hcount) := by
  cases r with
  | error error =>
      cases r' with
      | error error' => exact congrArg _ (Except.error.inj h)
      | ok found' => cases h
  | ok found =>
      cases r' with
      | error error' => cases h
      | ok found' =>
          obtain ⟨x, diagnostics⟩ := found
          obtain ⟨x', diagnostics'⟩ := found'
          obtain ⟨hx, rfl⟩ := Prod.mk.inj (Except.ok.inj h)
          have hexpand : x = (p'.partition.expand x').cast hcount := by
            apply Vector.toArray_inj.1
            rw [Vector.toArray_cast, Partition.toArray_expand hp']
            exact hx
          rw [hexpand]
          rfl

/-- **A run ends as the run on the reduced problem.**  Take a network whose formulas are as many as
the free ones, with none to be fixed and with their weights, and the objective of the free weights
alone.  Then no weight of it is fixed, and its run ends with the same error, or with the same
diagnostics and the weights that expand to those learned. -/
theorem Learner.result_eq_reduced_result {net net' : Network Float} (o : Objective Float)
    (options : LearnOptions) {p : Partition Float net.formulaCount}
    (hp : derivePartition net o.mode = .ok p) (hcount : net'.formulaCount = p.freeCount)
    (hfixed : net'.fixedFormulas = [])
    (hweights : options.useInitialWeights = true → ∃ w, net.currentWeights = .ok w ∧
      net'.currentWeights = .ok ((p.reduce w).cast hcount.symm))
    (backend : Backend) (level : LogLevel) (allowance : Nat)
    (learner : Learner net.formulaCount) (learner' : Learner net'.formulaCount) :
    (∃ p', derivePartition net' (p.reducedObjective o).mode = .ok p' ∧ p'.isIdentity = true) ∧
    ((Learner.run net o.mode backend level allowance options learner).run
        o.respond ()).result.map (·.2) =
      ((Learner.run net' (p.reducedObjective o).mode backend level allowance options learner').run
        (p.reducedObjective o).respond ()).result.map fun r =>
          r.2.map (Learned.expand p hcount) := by
  obtain ⟨p', hp', hidentity⟩ :=
    exists_derivePartition_of_fixedFormulas_eq_nil hfixed (p.reducedObjective o).mode
  refine ⟨⟨p', hp', hidentity⟩, ?_⟩
  cases backend with
  | unavailable => rfl
  | available =>
      obtain ⟨start, hstart, hstart'⟩ := exists_startingWeights hcount hweights
      rw [Learner.result_run_of_prepare (prepare_eq_ok hstart hp),
        Learner.result_run_of_prepare (prepare_eq_ok hstart' hp'), Option.map_map, Option.map_map]
      have hfree : p.freeCount = p'.freeCount := by
        rw [Partition.freeCount_eq hidentity, hcount]
      have hreduced : (p.reduce start).toArray =
          (p'.reduce ((p.reduce start).cast hcount.symm)).toArray := by
        rw [Partition.toArray_reduce hidentity, Vector.toArray_cast]
      -- the gradients of the reduced objective have the right length, so reducing once more
      -- changes nothing
      have hagree : Objective.AgreesAt p.freeCount (p.reducedObjective o)
          (p'.reducedObjective (p.reducedObjective o)) := by
        rw [hfree]
        refine (Partition.agreesAt_reducedObjective hidentity fun x g hg => ?_).symm
        rw [hcount]
        rw [← Vector.toArray_cast (h := hcount)] at hg
        exact Partition.size_of_gradient_eq_ok hg
      have hbare := map_bare_result_run_optimize level allowance ⟨p, p.reduce start, options⟩
        ⟨p', p'.reduce ((p.reduce start).cast hcount.symm), options⟩ hfree hreduced rfl hagree
      exact map_eq_map_of_imp hbare fun r r' hr =>
        Learner.conclude_eq_map_expand hcount hidentity learner learner' hr

/-! ### A run of one formula -/

/-- One formula, which is not to be fixed. -/
def oneFree : Network Float where
  formulaCount := 1
  weight _ := .ok 0
  fixedFormulas := []
  groundings _ := .ok []

/-- The run on two formulas, one of them fixed, ends as the run on one. -/
theorem Learner.result_eq_reduced_result_halfFixed :
    ∃ p, derivePartition halfFixed .hard = .ok p ∧ ∃ hcount : 1 = p.freeCount,
      (((Learner.run halfFixed .hard .available .off 1 ⟨true, .standard⟩ (.fresh 2)).run
          flat.respond ()).result.any fun r => r.2.isOk) = true ∧
      ((Learner.run halfFixed .hard .available .off 1 ⟨true, .standard⟩ (.fresh 2)).run
          flat.respond ()).result.map (·.2) =
        ((Learner.run oneFree .hard .available .off 1 ⟨true, .standard⟩ (.fresh 1)).run
          (p.reducedObjective flat).respond ()).result.map fun r =>
            r.2.map (Learned.expand p hcount) := by
  have hpremises : (match derivePartition halfFixed .hard with
      | .error _ => false
      | .ok p => 1 = p.freeCount ∧ (p.reduce #v[0, 0]).toArray = #[(0 : Float)]) = true := by
    decide +kernel
  cases hp : derivePartition halfFixed .hard with
  | error error =>
      rw [hp] at hpremises
      cases hpremises
  | ok p =>
      rw [hp] at hpremises
      obtain ⟨hcount, hreduce⟩ := of_decide_eq_true hpremises
      refine ⟨p, rfl, hcount, by decide +kernel, ?_⟩
      have hfree : oneFree.formulaCount = p.freeCount := hcount
      have hweights : oneFree.currentWeights = .ok ((p.reduce #v[0, 0]).cast hfree.symm) := by
        have hread : oneFree.currentWeights = .ok #v[0] := rfl
        refine hread.trans (congrArg _ (Vector.toArray_inj.1 ?_))
        rw [Vector.toArray_cast]
        exact hreduce.symm
      exact (Learner.result_eq_reduced_result flat ⟨true, .standard⟩ hp hfree rfl
        (fun _ => ⟨#v[0, 0], rfl, hweights⟩) .available .off 1 (.fresh 2) (.fresh 1)).2

end MarkovLogic
