/-
**Options that a caller can reach.**

A caller begins with the standard options and sets one after the other; what is refused leaves the
options as they were.  Every check that a setter makes is thereby a fact about all options that can
be reached: tolerances are finite and positive, and neither the iterations nor the remembered pairs
are none at all.  So the solver accepts them.

Main definitions:

* `LearnOptions.Reachable` — options set one by one, beginning with the standard ones;
* `Settings.Valid` — what the checks of the setters ask for;
* `LearnOptions.setWherePossible` — options set one by one, those that are refused left out.

Main results:

* `LearnOptions.valid_of_set` — an accepted option keeps the settings valid;
* `LearnOptions.Reachable.valid` — **the settings that can be reached are valid**;
* `Settings.Valid.exists_criteria` — **the solver accepts valid settings**;
* `LearnOptions.solver_built_whatever_is_set` — **whatever a caller sets, the solver is built**.
-/
import MarkovLogic.Learner.Options
import MarkovLogic.Proofs.Scalar.Order
import MarkovLogic.Proofs.Success

set_option autoImplicit false

namespace MarkovLogic

/-- The options that a caller can reach. -/
inductive LearnOptions.Reachable : LearnOptions → Prop
  | standard : Reachable .standard
  | set {o o' : LearnOptions} {name text : String} (before : Reachable o)
      (accepted : o.set name text = .ok o') : Reachable o'

/-- A tolerance to work with. -/
structure PositiveTolerance (tolerance : Float) : Prop where
  finite : tolerance.isFinite = true
  positive : 0 < tolerance

/-- Settings to work with: positive tolerances, of which that on the gradient is given, and room for
at least one iteration and one pair. -/
structure Settings.Valid (s : Settings) : Prop where
  gradient : ∃ tolerance, s.tolerances.gradient = some tolerance ∧ PositiveTolerance tolerance
  cost : ∀ tolerance, s.tolerances.cost = some tolerance → PositiveTolerance tolerance
  iterations : ∀ cap, s.tolerances.iterations = some cap → 1 ≤ cap
  memory : ∀ pairs, s.memory = some pairs → 1 ≤ pairs

/-! ### Checks -/

/-- The tolerances without a fault are those to work with. -/
theorem toleranceFault?_eq_none_iff {tolerance : Float} :
    toleranceFault? tolerance = none ↔ PositiveTolerance tolerance := by
  have hzero : (0 : Float).isFinite = true := by decide
  rw [toleranceFault?]
  constructor
  · intro h
    split at h
    · cases h
    · rename_i hfinite
      split at h
      · cases h
      · rename_i hle
        have hfinite' : tolerance.isFinite = true := by simpa using hfinite
        exact ⟨hfinite', Double.lt_of_not_le hzero hfinite' hle⟩
  · intro h
    have hle : ¬tolerance ≤ 0 := fun hle =>
      (Double.not_lt_iff (Double.isNaN_of_isFinite hzero)
        (Double.isNaN_of_isFinite h.finite)).2 hle h.positive
    rw [h.finite]
    simp [hle]

/-- A tolerance passes its check if it is open or one to work with. -/
theorem checkTolerance_eq_ok_iff {invalid : Float → String → OptimizationError Float}
    {given : Option Float} :
    checkTolerance invalid given = .ok () ↔
      ∀ tolerance, given = some tolerance → PositiveTolerance tolerance := by
  cases given with
  | none => exact ⟨fun _ => nofun, fun _ => rfl⟩
  | some tolerance =>
      simp only [Option.some.injEq, forall_eq', ← toleranceFault?_eq_none_iff]
      rw [checkTolerance]
      cases toleranceFault? tolerance <;> simp

/-- Tolerances that are accepted are accepted as they are, and every one that is given is one to
work with. -/
theorem Tolerances.make_eq_ok {gradient cost : Option Float} {iterations : Option Nat}
    {t : Tolerances} (h : Tolerances.make gradient cost iterations = .ok t) :
    t = ⟨gradient, cost, iterations⟩ ∧
      (∀ tolerance, gradient = some tolerance → PositiveTolerance tolerance) ∧
      (∀ tolerance, cost = some tolerance → PositiveTolerance tolerance) ∧
      ∀ cap, iterations = some cap → 1 ≤ cap := by
  unfold Tolerances.make at h
  split at h
  · cases h
  · obtain ⟨_, hcost, h⟩ := bind_eq_ok_iff.1 h
    obtain ⟨_, hgradient, h⟩ := bind_eq_ok_iff.1 h
    split at h
    · cases h
    · rename_i hcap
      cases h
      refine ⟨rfl, checkTolerance_eq_ok_iff.1 hgradient, checkTolerance_eq_ok_iff.1 hcost,
        fun cap hcap' => ?_⟩
      have hne : cap ≠ 0 := fun hzero => hcap (hzero ▸ hcap')
      omega

/-- Settings that are accepted are accepted as they are, and have room for a pair. -/
theorem Settings.make_eq_ok {tolerances : Tolerances} {lineSearch : LineSearch} {verbose : Bool}
    {memory : Option Nat} {s : Settings} (h : make tolerances lineSearch verbose memory = .ok s) :
    s = ⟨tolerances, lineSearch, verbose, memory⟩ ∧ ∀ pairs, memory = some pairs → 1 ≤ pairs := by
  unfold make at h
  split at h
  · cases h
  · rename_i hmemory
    cases h
    refine ⟨rfl, fun pairs hpairs => ?_⟩
    have hne : pairs ≠ 0 := fun hzero => hmemory (hzero ▸ hpairs)
    omega

/-! ### Setting options -/

theorem LearnOptions.valid_of_withTolerances {o o' : LearnOptions} {gradient cost : Option Float}
    {iterations : Option Nat} (ho : o.settings.Valid) (hgiven : gradient.isSome = true)
    (h : o.withTolerances gradient cost iterations = .ok o') : o'.settings.Valid := by
  unfold withTolerances at h
  obtain ⟨t, hmake, h⟩ := bind_eq_ok_iff.1 h
  cases h
  obtain ⟨rfl, hgradient, hcost, hiterations⟩ := Tolerances.make_eq_ok (mapError_eq_ok_iff.1 hmake)
  obtain ⟨tolerance, rfl⟩ := Option.isSome_iff_exists.1 hgiven
  exact ⟨⟨tolerance, rfl, hgradient tolerance rfl⟩, hcost, hiterations, ho.memory⟩

/-- **An option that is accepted keeps the settings valid.** -/
theorem LearnOptions.valid_of_set {o o' : LearnOptions} {name text : String}
    (ho : o.settings.Valid) (h : o.set name text = .ok o') : o'.settings.Valid := by
  have hgradient : o.settings.tolerances.gradient.isSome = true := by
    obtain ⟨tolerance, htolerance, -⟩ := ho.gradient
    rw [htolerance]
    rfl
  unfold set at h
  cases hkey : OptionKey.ofName? name with
  | none =>
      rw [hkey] at h
      cases h
  | some key =>
      rw [hkey] at h
      cases key with
      | initialWeights =>
          obtain ⟨value, -, hvalue⟩ := bind_eq_ok_iff.1 h
          cases hvalue
          exact ho
      | gradientTolerance =>
          obtain ⟨tolerance, -, htolerance⟩ := bind_eq_ok_iff.1 h
          exact valid_of_withTolerances ho rfl htolerance
      | costTolerance =>
          obtain ⟨tolerance, -, htolerance⟩ := bind_eq_ok_iff.1 h
          exact valid_of_withTolerances ho hgradient htolerance
      | iterationCap =>
          obtain ⟨cap, -, hcap⟩ := bind_eq_ok_iff.1 h
          exact valid_of_withTolerances ho hgradient hcap
      | lineSearch =>
          dsimp only [setKey] at h
          obtain ⟨lineSearch, -, h⟩ := bind_eq_ok_iff.1 h
          cases h
          exact ⟨ho.gradient, ho.cost, ho.iterations, ho.memory⟩
      | memory =>
          obtain ⟨pairs, -, h⟩ := bind_eq_ok_iff.1 h
          obtain ⟨settings, hmake, h⟩ := bind_eq_ok_iff.1 h
          cases h
          obtain ⟨rfl, hmemory⟩ := Settings.make_eq_ok (mapError_eq_ok_iff.1 hmake)
          exact ⟨ho.gradient, ho.cost, ho.iterations, hmemory⟩
      | verbose =>
          obtain ⟨value, -, hvalue⟩ := bind_eq_ok_iff.1 h
          cases hvalue
          exact ⟨ho.gradient, ho.cost, ho.iterations, ho.memory⟩

theorem Settings.valid_standard : Settings.standard.Valid where
  gradient := ⟨1e-5, rfl, by decide +kernel, by decide +kernel⟩
  cost := by simp [Settings.standard]
  iterations := by simp [Settings.standard]
  memory := by simp [Settings.standard]

/-- **The settings that can be reached are valid.** -/
theorem LearnOptions.Reachable.valid {o : LearnOptions} (h : o.Reachable) : o.settings.Valid := by
  induction h with
  | standard => exact Settings.valid_standard
  | set _ accepted ih => exact valid_of_set ih accepted

/-- Options set one after the other from reachable ones are reachable. -/
theorem LearnOptions.Reachable.setAll {o o' : LearnOptions} {params : List (String × String)}
    (ho : o.Reachable) (h : o.setAll params = .ok o') : o'.Reachable := by
  induction params generalizing o with
  | nil =>
      cases h
      exact ho
  | cons param rest ih =>
      obtain ⟨name, text⟩ := param
      obtain ⟨next, hset, hrest⟩ := bind_eq_ok_iff.1 h
      exact ih (.set ho hset) hrest

/-! ### The solver -/

/-- Nothing in valid settings is refused, and what they leave open is filled in. -/
theorem Settings.Valid.criteria_eq {s : Settings} (h : s.Valid) (n : Nat) :
    s.criteria n = .ok {
      gradient := s.tolerances.gradient.getD rootEpsilon
      cost := s.tolerances.cost.getD machineEpsilon
      cap := s.tolerances.iterations.getD (200 * max n 1)
      memory := s.memory.getD 7
      lineSearch := s.lineSearch } := by
  have hnegative : ∀ {tolerance : Float}, PositiveTolerance tolerance → ¬tolerance < 0 :=
    fun ht => Double.not_lt_of_lt ht.positive
  have hgradient : s.tolerances.gradient.any (· < 0) = false := by
    obtain ⟨tolerance, htolerance, hpositive⟩ := h.gradient
    rw [htolerance]
    exact decide_eq_false (hnegative hpositive)
  have hcost : s.tolerances.cost.any (· < 0) = false := by
    cases hc : s.tolerances.cost with
    | none => rfl
    | some tolerance => exact decide_eq_false (hnegative (h.cost tolerance hc))
  unfold Settings.criteria
  dsimp only
  rw [hgradient, hcost]
  rfl

/-- **The solver accepts valid settings.** -/
theorem Settings.Valid.exists_criteria {s : Settings} (h : s.Valid) (n : Nat) :
    ∃ criteria, s.criteria n = .ok criteria :=
  ⟨_, h.criteria_eq n⟩

/-- Criteria to work with: positive tolerances, and room for at least one iteration and one pair. -/
structure Criteria.Workable (c : Criteria) : Prop where
  gradient : PositiveTolerance c.gradient
  cost : PositiveTolerance c.cost
  cap : 1 ≤ c.cap
  memory : 1 ≤ c.memory

theorem positiveTolerance_machineEpsilon : PositiveTolerance machineEpsilon :=
  ⟨by decide +kernel, by decide +kernel⟩

/-- What keeps to a bound if it is given does so with anything that keeps to it in its place. -/
theorem getD_of_forall {α : Type} {P : α → Prop} {given : Option α} {standard : α}
    (h : ∀ a, given = some a → P a) (hstandard : P standard) : P (given.getD standard) := by
  cases given with
  | none => exact hstandard
  | some a => exact h a rfl

/-- Valid settings make criteria to work with. -/
theorem Settings.Valid.workable {s : Settings} (h : s.Valid) {n : Nat} {criteria : Criteria}
    (hcriteria : s.criteria n = .ok criteria) :
    criteria.Workable ∧ s.tolerances.gradient = some criteria.gradient ∧
      criteria.lineSearch = s.lineSearch := by
  obtain rfl := Except.ok.inj ((h.criteria_eq n).symm.trans hcriteria)
  obtain ⟨tolerance, htolerance, hpositive⟩ := h.gradient
  rw [htolerance]
  exact ⟨⟨hpositive, getD_of_forall h.cost positiveTolerance_machineEpsilon,
    getD_of_forall h.iterations (by omega), getD_of_forall h.memory (by omega)⟩, rfl, rfl⟩

/-! ### Setting what is accepted -/

namespace LearnOptions

/-- Set options one after the other; one that is refused leaves the options as they were. -/
def setWherePossible : LearnOptions → List (String × String) → LearnOptions
  | o, [] => o
  | o, (name, text) :: rest =>
    match o.set name text with
    | .ok next => next.setWherePossible rest
    | .error _ => o.setWherePossible rest

theorem Reachable.setWherePossible {o : LearnOptions} (ho : o.Reachable)
    (params : List (String × String)) : (o.setWherePossible params).Reachable := by
  induction params generalizing o with
  | nil => exact ho
  | cons param rest ih =>
      obtain ⟨name, text⟩ := param
      rw [LearnOptions.setWherePossible]
      cases hset : o.set name text with
      | ok next => exact ih (.set ho hset)
      | error error => exact ih ho

/-- **Whatever a caller sets, the solver is built.**  Options that are set one after the other, with
those that are refused left out, are valid; and with either line search they make criteria to work
with, on the tolerance that was set. -/
theorem solver_built_whatever_is_set (params : List (String × String)) :
    (standard.setWherePossible params).settings.Valid ∧
      ∀ (search : LineSearch) (n : Nat), ∃ criteria,
        Settings.criteria
          { (standard.setWherePossible params).settings with lineSearch := search } n =
            .ok criteria ∧
          criteria.Workable ∧
          (standard.setWherePossible params).settings.tolerances.gradient =
            some criteria.gradient ∧
          criteria.lineSearch = search := by
  have ho := (Reachable.standard.setWherePossible params).valid
  generalize standard.setWherePossible params = o at ho
  refine ⟨ho, fun search n => ?_⟩
  -- no check looks at the line search
  have hsearch : Settings.Valid { o.settings with lineSearch := search } :=
    ⟨ho.gradient, ho.cost, ho.iterations, ho.memory⟩
  obtain ⟨criteria, hcriteria⟩ := hsearch.exists_criteria n
  exact ⟨criteria, hcriteria, hsearch.workable hcriteria⟩

end LearnOptions

end MarkovLogic
