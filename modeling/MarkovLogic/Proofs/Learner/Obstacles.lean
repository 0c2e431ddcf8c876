/-
**What keeps a run from its maximisation.**

Before a run asks the objective anything it reads the starting weights, derives the fixed ones and
matches these with the formulas.  Each of the three may fail, and the first that does is the error
of the run.  Nothing else can go wrong on the way: every vector that the run hands on has the length
that is asked for, so from there on the only errors are those of the maximisation.

Main definitions:

* `Obstacle` — what keeps a run from its maximisation, with the error that the run reports;
* `prepareChecked`, `Learner.runChecked` — preparation and run with the length of every vector
  checked where it changes hands.

Main results:

* `prepare_eq_error_iff` — **a preparation fails with the obstacle in its way**;
* `Learner.runChecked_eq` — **no check of a length ever fires**;
* `Learner.begins_unless_obstacle` — **a run begins unless there is an obstacle**.
-/
import MarkovLogic.Proofs.Learner.Lifecycle
import MarkovLogic.Proofs.Weights.Derivation

set_option autoImplicit false

namespace MarkovLogic

variable {R ε : Type} {n : Nat} {σ : Type}

/-! ### Reading the start -/

/-- Reading from position `k` on fails at the first position from there that cannot be read. -/
theorem readOnto_eq_error_iff {read : Nat → Except ε R} {left k : Nat} {entries : Vector R k}
    {all : k + left = n} {error : ε} :
    readOnto read left k entries all = .error error ↔
      ∃ i, k ≤ i ∧ i < n ∧ read i = .error error ∧ ∀ j, k ≤ j → j < i → ∃ x, read j = .ok x := by
  induction left generalizing k with
  | zero =>
      rw [readOnto]
      constructor
      · exact nofun
      · rintro ⟨i, hk, hn, -⟩
        omega
  | succ left ih =>
      rw [readOnto]
      cases hk : read k with
      | error first =>
          constructor
          · rintro ⟨⟩
            exact ⟨k, Nat.le_refl _, by omega, hk, fun j hj hlt => by omega⟩
          · rintro ⟨i, hi, -, herror, hearlier⟩
            rcases Nat.eq_or_lt_of_le hi with rfl | hlt
            · exact congrArg _ (Except.error.inj (hk.symm.trans herror))
            · -- the first failure is not behind one
              obtain ⟨x, hx⟩ := hearlier k (Nat.le_refl k) hlt
              cases hk.symm.trans hx
      | ok entry =>
          rw [ih]
          constructor
          · rintro ⟨i, hi, hn, herror, hearlier⟩
            refine ⟨i, by omega, hn, herror, fun j hj hlt => ?_⟩
            rcases Nat.eq_or_lt_of_le hj with rfl | hj
            · exact ⟨entry, hk⟩
            · exact hearlier j hj hlt
          · rintro ⟨i, hi, hn, herror, hearlier⟩
            rcases Nat.eq_or_lt_of_le hi with rfl | hlt
            · cases hk.symm.trans herror
            · exact ⟨i, hlt, hn, herror, fun j hj => hearlier j (by omega)⟩

/-- Reading a vector fails at the first entry that cannot be read. -/
theorem readEntries_eq_error_iff {read : Nat → Except ε R} {error : ε} :
    readEntries read n = .error error ↔
      ∃ i < n, read i = .error error ∧ ∀ j < i, ∃ x, read j = .ok x := by
  simp [readEntries, readOnto_eq_error_iff]

/-- If reading a vector does not fail, every entry can be read. -/
theorem exists_of_readEntries {read : Nat → Except ε R} {entries : Vector R n}
    (h : readEntries read n = .ok entries) : ∀ i < n, ∃ x, read i = .ok x := by
  intro i
  induction i using Nat.strongRecOn with
  | ind i ih =>
      intro hi
      cases hread : read i with
      | ok x => exact ⟨x, rfl⟩
      | error error =>
          have hfailed := readEntries_eq_error_iff.2
            ⟨i, hi, hread, fun j hj => ih j hj (Nat.lt_trans hj hi)⟩
          cases h.symm.trans hfailed

/-- The starting weights fail with the first weight that is wanted and cannot be read. -/
theorem startingWeights_eq_error_iff {net : Network Float} {options : LearnOptions}
    {error : LearningError Float} :
    startingWeights net options = .error error ↔
      options.useInitialWeights = true ∧ ∃ i < net.formulaCount, ∃ e,
        net.weight i = .error e ∧ (∀ j < i, ∃ w, net.weight j = .ok w) ∧ error = .network e := by
  unfold startingWeights
  by_cases hwanted : options.useInitialWeights = true
  · rw [if_pos hwanted]
    constructor
    · intro h
      obtain ⟨e, he, rfl⟩ : ∃ e, net.currentWeights = .error e ∧ error = .network e := by
        cases hread : net.currentWeights with
        | error e =>
            rw [hread] at h
            exact ⟨e, rfl, (Except.error.inj h).symm⟩
        | ok w =>
            rw [hread] at h
            cases h
      obtain ⟨i, hi, hfailed, hearlier⟩ := readEntries_eq_error_iff.1 he
      exact ⟨hwanted, i, hi, e, hfailed, hearlier, rfl⟩
    · rintro ⟨-, i, hi, e, hfailed, hearlier, rfl⟩
      rw [Network.currentWeights, readEntries_eq_error_iff.2 ⟨i, hi, hfailed, hearlier⟩]
      rfl
  · rw [if_neg hwanted]
    exact ⟨nofun, fun h => absurd h.1 hwanted⟩

/-! ### Deriving the fixed weights -/

/-- Deriving the fixed weights never fails with an error of the maximisation. -/
theorem Network.fixedWeights_ne_optimization (net : Network Float) (mode : EvidenceMode)
    (e : OptimizationError Float) : net.fixedWeights mode ≠ .error (.optimization e) := by
  intro h
  obtain ⟨before, i, after, -, -, hi⟩ := fixedWeights_eq_error_iff.1 h
  exact (fixFormula_eq_error_iff.1 hi).ne_optimization rfl

/-! ### Obstacles -/

/-- The weights that the start needs can be read. -/
def Network.Readable (net : Network Float) (options : LearnOptions) : Prop :=
  options.useInitialWeights = true → ∀ i < net.formulaCount, ∃ w, net.weight i = .ok w

/-- What keeps a run from its maximisation, with the error that the run reports.  Each kind stands
in the way only if those before it do not. -/
inductive Obstacle (net : Network Float) (mode : EvidenceMode) (options : LearnOptions) :
    LearningError Float → Prop
  /-- The start needs the weight of a formula that cannot be read, the first of its kind. -/
  | unreadable {i : Nat} {e : NetworkError} (wanted : options.useInitialWeights = true)
      (inRange : i < net.formulaCount) (failed : net.weight i = .error e)
      (earlier : ∀ j < i, ∃ w, net.weight j = .ok w) : Obstacle net mode options (.network e)
  /-- A weight that is to be fixed cannot be derived. -/
  | underivable {error : LearningError Float} (readable : net.Readable options)
      (failed : net.fixedWeights mode = .error error) : Obstacle net mode options error
  /-- A weight is to be fixed for a formula that does not exist, the least of its kind. -/
  | beyond {i : Nat} {fixed : FixedWeights Float} (readable : net.Readable options)
      (derived : net.fixedWeights mode = .ok fixed) (listed : i ∈ net.fixedFormulas)
      (outOfRange : net.formulaCount ≤ i)
      (least : ∀ j ∈ net.fixedFormulas, net.formulaCount ≤ j → i ≤ j) :
      Obstacle net mode options (.fixedIndexOutOfRange i net.formulaCount)

variable {net : Network Float} {mode : EvidenceMode} {options : LearnOptions}

/-- There is a start if and only if the weights it needs can be read. -/
theorem exists_startingWeights_iff :
    (∃ start, startingWeights net options = .ok start) ↔ net.Readable options := by
  constructor
  · rintro ⟨start, h⟩ hwanted
    rw [startingWeights, if_pos hwanted] at h
    exact exists_of_readEntries (mapError_eq_ok_iff.1 h)
  · intro h
    cases hstart : startingWeights net options with
    | ok start => exact ⟨start, rfl⟩
    | error error =>
        obtain ⟨hwanted, i, hi, e, hfailed, -⟩ := startingWeights_eq_error_iff.1 hstart
        obtain ⟨w, hw⟩ := h hwanted i hi
        cases hw.symm.trans hfailed

/-- Where the fixed weights are derived, the least formula beyond the others is a listed one. -/
theorem Network.firstBeyond?_eq_some_iff {fixed : FixedWeights Float}
    (h : net.fixedWeights mode = .ok fixed) {i : Nat} :
    fixed.firstBeyond? net.formulaCount = some i ↔
      i ∈ net.fixedFormulas ∧ net.formulaCount ≤ i ∧
        ∀ j ∈ net.fixedFormulas, net.formulaCount ≤ j → i ≤ j := by
  have hlisted (j : Nat) : (∃ weight, fixed.find? j = some weight) ↔ j ∈ net.fixedFormulas :=
    ⟨fun ⟨_, hweight⟩ => net.mem_fixedFormulas_of_find? h hweight,
      net.exists_find?_of_fixedWeights h⟩
  rw [FixedWeights.firstBeyond?_eq_some_iff, hlisted, and_left_comm]
  refine and_congr_right fun _ => and_congr_right fun _ => forall_congr' fun j => ?_
  rw [← hlisted, forall_exists_index]

/-- A partition cannot be derived if a fixed weight cannot, or if one is for no formula. -/
theorem derivePartition_eq_error_iff {error : LearningError Float} :
    derivePartition net mode = .error error ↔
      net.fixedWeights mode = .error error ∨
        ∃ fixed, net.fixedWeights mode = .ok fixed ∧ ∃ i ∈ net.fixedFormulas,
          net.formulaCount ≤ i ∧ (∀ j ∈ net.fixedFormulas, net.formulaCount ≤ j → i ≤ j) ∧
            error = .fixedIndexOutOfRange i net.formulaCount := by
  rw [derivePartition, bind_eq_error_iff]
  refine or_congr_right (exists_congr fun fixed => and_congr_right fun hfixed => ?_)
  rw [Partition.ofFixed_eq_error_iff]
  refine exists_congr fun i => ?_
  rw [Network.firstBeyond?_eq_some_iff hfixed, and_assoc, and_assoc]

/-- **A preparation fails with the obstacle in its way.** -/
theorem prepare_eq_error_iff {error : LearningError Float} :
    prepare net mode options = .error error ↔ Obstacle net mode options error := by
  have hparts : prepare net mode options = .error error ↔
      startingWeights net options = .error error ∨
        net.Readable options ∧ derivePartition net mode = .error error := by
    rw [prepare, bind_eq_error_iff, ← exists_startingWeights_iff]
    refine or_congr_right ⟨?_, ?_⟩
    · rintro ⟨start, hstart, h⟩
      rcases bind_eq_error_iff.1 h with h | ⟨p, -, h⟩
      · exact ⟨⟨start, hstart⟩, h⟩
      · cases h
    · rintro ⟨⟨start, hstart⟩, h⟩
      exact ⟨start, hstart, bind_eq_error_iff.2 (.inl h)⟩
  rw [hparts, startingWeights_eq_error_iff, derivePartition_eq_error_iff]
  constructor
  · rintro (⟨hwanted, i, hi, e, hfailed, hearlier, rfl⟩ |
      ⟨hreadable, hfailed | ⟨fixed, hderived, i, hlisted, hout, hleast, rfl⟩⟩)
    · exact .unreadable hwanted hi hfailed hearlier
    · exact .underivable hreadable hfailed
    · exact .beyond hreadable hderived hlisted hout hleast
  · intro h
    cases h with
    | unreadable wanted inRange failed earlier =>
        exact .inl ⟨wanted, _, inRange, _, failed, earlier, rfl⟩
    | underivable readable failed => exact .inr ⟨readable, .inl failed⟩
    | beyond readable derived listed outOfRange least =>
        exact .inr ⟨readable, .inr ⟨_, derived, _, listed, outOfRange, least, rfl⟩⟩

/-- An obstacle is no error of the maximisation. -/
theorem Obstacle.ne_optimization {error : LearningError Float}
    (h : Obstacle net mode options error) (e : OptimizationError Float) :
    error ≠ .optimization e := by
  rintro rfl
  cases h with
  | underivable readable failed => exact net.fixedWeights_ne_optimization mode e failed

/-- There is at most one obstacle, the first. -/
theorem Obstacle.eq {error error' : LearningError Float} (h : Obstacle net mode options error)
    (h' : Obstacle net mode options error') : error = error' := by
  rw [← prepare_eq_error_iff] at h h'
  exact Except.error.inj (h.symm.trans h')

/-! ### Lengths -/

/-- The preparation with the length of the start checked before it is reduced. -/
def prepareChecked (net : Network Float) (mode : EvidenceMode) (options : LearnOptions) :
    Except (LearningError Float) (Preparation net.formulaCount) := do
  let start ← startingWeights net options
  let partition ← derivePartition net mode
  let reduced ← partition.reduce? start.toArray
  return ⟨partition, reduced, options⟩

/-- A run from its preparation on with the length of what the maximisation has found checked before
it is expanded. -/
def Learner.completeChecked (learner : Learner n) (level : LogLevel) (allowance : Nat)
    (p : Preparation n) : Consultation Float n (RunResult n) := do
  let learner : Learner n := { learner with phase := .initialized, preparation := some p }
  Dialogue.log level p.record
  let learner : Learner n := { learner with phase := .optimizing }
  match ← optimize level allowance p with
  | .error error => return learner.fail error
  | .ok (reduced, diagnostics) =>
    match p.partition.expand? reduced.toArray with
    | .error error => return learner.fail error
    | .ok weights =>
      Dialogue.logAll level diagnostics.records
      let found : Preparation n := { p with reduced := reduced }
      let learner : Learner n :=
        { learner with phase := .converged, preparation := some found, weights := some weights }
      return (learner, .ok ⟨weights, diagnostics⟩)

/-- A run with the length of every vector checked where it changes hands. -/
def Learner.runChecked (net : Network Float) (mode : EvidenceMode) (backend : Backend)
    (level : LogLevel) (allowance : Nat) (options : LearnOptions)
    (learner : Learner net.formulaCount) :
    Consultation Float net.formulaCount (RunResult net.formulaCount) :=
  match backend.require with
  | .error error => .done (learner, .error error)
  | .ok () => do
    Dialogue.logAll level (prepareRecords net mode options)
    match prepareChecked net mode options with
    | .error error => return learner.fail error
    | .ok p => learner.completeChecked level allowance p

/-- The start has an entry for each formula. -/
theorem prepareChecked_eq : prepareChecked net mode options = prepare net mode options := by
  unfold prepareChecked prepare
  refine congrArg _ (funext fun start => congrArg _ (funext fun p => ?_))
  rw [p.reduce?_toArray]
  rfl

/-- What the maximisation has found has an entry for each free weight. -/
theorem Learner.completeChecked_eq (learner : Learner n) (level : LogLevel) (allowance : Nat)
    (p : Preparation n) :
    learner.completeChecked level allowance p = learner.complete level allowance p := by
  unfold completeChecked complete
  refine congrArg _ (funext fun _ => congrArg _ (funext fun r => ?_))
  cases r with
  | error error => rfl
  | ok found =>
      dsimp only
      rw [p.partition.expand?_toArray]
      rfl

/-- **No check of a length ever fires.** -/
theorem Learner.runChecked_eq (backend : Backend) (level : LogLevel) (allowance : Nat)
    (learner : Learner net.formulaCount) :
    runChecked net mode backend level allowance options learner =
      run net mode backend level allowance options learner := by
  unfold runChecked run
  cases backend.require with
  | error error => rfl
  | ok _ =>
      dsimp only
      rw [prepareChecked_eq]
      refine congrArg _ (funext fun _ => ?_)
      cases prepare net mode options with
      | error error => rfl
      | ok p => exact learner.completeChecked_eq level allowance p

/-! ### The beginning of a run -/

/-- The only errors of a learner's maximisation are those of the maximisation. -/
theorem exists_optimization_of_unfolds_optimize {level : LogLevel} {allowance : Nat}
    {p : Preparation n} {events : List (Event (Consult Float n) Consult.Answer)}
    {error : LearningError Float}
    (h : (optimize level allowance p).Unfolds events (some (.error error))) :
    ∃ e, error = .optimization e := by
  rcases unfolds_optimize h with ⟨answer, -, hresult⟩ | ⟨inner, o, -, -, hresult⟩
  · cases answer with
    | error e => exact ⟨e, by cases hresult; rfl⟩
    | ok v => cases hresult
  · cases o with
    | none => cases hresult
    | some o =>
        cases o with
        | error e => exact ⟨e, by cases hresult; rfl⟩
        | ok outcome => cases hresult

/-- A run whose preparation succeeds keeps what it has prepared, and reports no error but one of the
maximisation. -/
theorem Learner.kept_of_prepare {p : Preparation net.formulaCount}
    (hp : prepare net mode options = .ok p) {level : LogLevel} {allowance : Nat}
    {learner after : Learner net.formulaCount}
    {events : List (Event (Consult Float net.formulaCount) Consult.Answer)}
    {result : Except (LearningError Float) (Learned net.formulaCount)}
    (h : (run net mode .available level allowance options learner).Unfolds events
      (some (after, result))) :
    (∃ reduced, after.preparation = some { p with reduced := reduced }) ∧
      ∀ error, result = .error error → ∃ e, error = .optimization e := by
  rcases unfolds_run h with ⟨error, hmissing, -⟩ | ⟨error, hfailed, -⟩ |
    ⟨p', hp', front, body, back, r, -, -, -, hbody, hr⟩
  · cases hmissing
  · cases hp.symm.trans hfailed
  · obtain rfl : p = p' := Except.ok.inj (hp.symm.trans hp')
    cases r with
    | none => cases hr
    | some r =>
        cases r with
        | error error =>
            cases hr
            refine ⟨⟨p.reduced, rfl⟩, ?_⟩
            rintro _ ⟨⟩
            exact exists_optimization_of_unfolds_optimize hbody
        | ok found =>
            cases hr
            exact ⟨⟨found.1, rfl⟩, nofun⟩

/-- **A run begins unless there is an obstacle**, whoever answers.  With an obstacle the run reports
it, asks nothing, and leaves everything but the phase.  There is one obstacle at most.  Without one
the run keeps what it has prepared, whether or not its maximisation succeeds, and the only errors it
may report are those of the maximisation, while no obstacle is such an error: so a run fails with
another error exactly if there is an obstacle.  To check the length of every vector that changes
hands makes no difference. -/
theorem Learner.begins_unless_obstacle (net : Network Float) (mode : EvidenceMode)
    (level : LogLevel) (allowance : Nat) (options : LearnOptions)
    (learner : Learner net.formulaCount)
    (respond : σ → (q : Consult Float net.formulaCount) → q.Answer × σ) (s : σ) :
    let exchange := (run net mode .available level allowance options learner).run respond s
    (∀ error, Obstacle net mode options error →
      exchange.result = some ({ learner with phase := .failed }, .error error) ∧
        Silent exchange.transcript) ∧
    (∀ error error', Obstacle net mode options error → Obstacle net mode options error' →
      error = error') ∧
    ((∀ error, ¬Obstacle net mode options error) →
      ∃ p, prepare net mode options = .ok p ∧ ∀ after result,
        exchange.result = some (after, result) →
          (∃ reduced, after.preparation = some { p with reduced := reduced }) ∧
          ∀ error, result = .error error → ∃ e, error = .optimization e) ∧
    ((∃ after error, exchange.result = some (after, .error error) ∧
        ∀ e, error ≠ .optimization e) ↔ ∃ error, Obstacle net mode options error) ∧
    runChecked net mode .available level allowance options learner =
      run net mode .available level allowance options learner := by
  intro exchange
  have hcourse := Dialogue.unfolds_run respond
    (run net mode .available level allowance options learner) s
  have hobstacle : ∀ error, Obstacle net mode options error →
      exchange.result = some ({ learner with phase := .failed }, .error error) ∧
        Silent exchange.transcript := fun error h => by
    have hfailed := prepare_eq_error_iff.2 h
    refine ⟨result_run_of_unprepared hfailed respond level allowance learner s, ?_⟩
    rcases unfolds_run hcourse with ⟨_, hmissing, -⟩ | ⟨_, -, hsilent, -⟩ | ⟨p, hp, -⟩
    · cases hmissing
    · exact hsilent
    · cases hp.symm.trans hfailed
  have hbegins : (∀ error, ¬Obstacle net mode options error) →
      ∃ p, prepare net mode options = .ok p ∧ ∀ after result,
        exchange.result = some (after, result) →
          (∃ reduced, after.preparation = some { p with reduced := reduced }) ∧
          ∀ error, result = .error error → ∃ e, error = .optimization e := fun hnone => by
    cases hp : prepare net mode options with
    | error error => exact absurd (prepare_eq_error_iff.1 hp) (hnone error)
    | ok p => exact ⟨p, rfl, fun after result hr => kept_of_prepare hp (hr ▸ hcourse)⟩
  refine ⟨hobstacle, fun error error' => Obstacle.eq, hbegins, ⟨?_, ?_⟩,
    runChecked_eq .available level allowance learner⟩
  · rintro ⟨after, error, hresult, hother⟩
    by_contra hnone
    obtain ⟨p, -, hkept⟩ := hbegins fun error h => hnone ⟨error, h⟩
    obtain ⟨e, rfl⟩ := (hkept after _ hresult).2 error rfl
    exact hother e rfl
  · rintro ⟨error, h⟩
    exact ⟨_, error, (hobstacle error h).1, h.ne_optimization⟩

/-- One formula, and two others to be fixed that do not exist. -/
def misnumbered : Network Float where
  formulaCount := 1
  weight _ := .ok 0
  fixedFormulas := [3, 0, 2]
  groundings _ := .ok [.ok { truth := .ok true }]

/-- The lesser of two formulas that do not exist keeps a run from its maximisation. -/
theorem Learner.begins_unless_obstacle_misnumbered :
    let exchange := (run misnumbered .hard .available .off 0 .standard (.fresh 1)).run
      flat.respond ()
    Obstacle misnumbered .hard .standard (.fixedIndexOutOfRange 2 1) ∧
      exchange.result = some (⟨.failed, none, none⟩, .error (.fixedIndexOutOfRange 2 1)) ∧
      Silent exchange.transcript := by
  intro exchange
  have hobstacle : Obstacle misnumbered .hard .standard (.fixedIndexOutOfRange 2 1) :=
    prepare_eq_error_iff.1 rfl
  exact ⟨hobstacle, (begins_unless_obstacle misnumbered .hard .off 0 .standard (.fresh 1)
    flat.respond ()).1 _ hobstacle⟩

end MarkovLogic
