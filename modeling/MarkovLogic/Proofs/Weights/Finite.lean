/-
**When a derived weight is finite.**

The weight of a formula is the logarithm of the satisfied share of its groundings.  What is
satisfied stays finite however many groundings there are, because a sum that has grown large no
longer grows.  But the share of a positive amount need not be positive: a quotient of up to half of
the least positive double is rounded to zero, and the logarithm of zero is infinite.

The logarithm itself is not looked into; what is used of it is that it is finite at positive finite
numbers and infinite at zero.

Main definitions:

* `Satisfaction.Counted` — what was counted is finite and bounded;
* `Satisfaction.Perceptible` — the satisfied share is not rounded to zero.

Main results:

* `counted_of_satisfaction` — **what is counted stays finite**;
* `Satisfaction.Counted.ratio_of_perceptible`, `Satisfaction.Counted.ratio_of_not_perceptible` — the
  share as a double;
* `Network.derived_weight_finite_iff` — **a derived weight is finite if and only if the share is
  perceptible**.
-/
import MarkovLogic.Proofs.Scalar.Arithmetic
import MarkovLogic.Proofs.Success
import MarkovLogic.Proofs.Weights.Table

set_option autoImplicit false

namespace MarkovLogic

/-! ### Counting -/

/-- A property that every counted degree keeps holds after all groundings were counted. -/
theorem countGroundings_induction {R : Type} [Zero R] [One R] [Add R] [Scalar R]
    {P : Satisfaction R → Prop} {mode : EvidenceMode} {i : ℕ}
    (step : ∀ (s : Satisfaction R) (g : GroundFormula R) (d : R), P s → g.degree mode = .ok d →
      inUnitInterval d = true → P ⟨s.groundings + 1, s.satisfied + d⟩)
    {gs : List (Except NetworkError (GroundFormula R))} {s₀ s : Satisfaction R} (h₀ : P s₀)
    (h : countGroundings mode i gs s₀ = .ok s) : P s := by
  induction gs generalizing s₀ with
  | nil =>
      cases h
      exact h₀
  | cons g rest ih =>
      cases g with
      | error error => cases h
      | ok g =>
          rw [countGroundings] at h
          cases hd : g.degree mode with
          | error error =>
              rw [hd] at h
              cases h
          | ok d =>
              rw [hd] at h
              dsimp only at h
              split at h
              · rename_i hunit
                exact ih (step s₀ g d h₀ hd hunit) h
              · cases h

/-- Counting the groundings of a formula starts from nothing. -/
theorem satisfaction_induction {R : Type} [Zero R] [One R] [Add R] [Scalar R]
    {P : Satisfaction R → Prop} {net : Network R} {mode : EvidenceMode} {i : ℕ}
    (step : ∀ (s : Satisfaction R) (g : GroundFormula R) (d : R), P s → g.degree mode = .ok d →
      inUnitInterval d = true → P ⟨s.groundings + 1, s.satisfied + d⟩)
    {s : Satisfaction R} (h₀ : P ⟨0, 0⟩) (h : net.satisfaction mode i = .ok s) : P s := by
  unfold Network.satisfaction at h
  cases hg : net.groundings i with
  | error error =>
      rw [hg] at h
      cases h
  | ok groundings =>
      rw [hg] at h
      exact countGroundings_induction step h₀ h

/-- What was counted is finite, not negative and bounded. -/
structure Satisfaction.Counted (s : Satisfaction Float) : Prop where
  finite : s.satisfied.isFinite = true
  nonneg : 0 ≤ Double.value s.satisfied
  le_two_pow : Double.value s.satisfied ≤ 2 ^ 54

/-- A degree that is accepted stands for a number of the unit interval. -/
theorem value_of_inUnitInterval {d : Float} (h : inUnitInterval d = true) :
    d.isFinite = true ∧ 0 ≤ Double.value d ∧ Double.value d ≤ 1 := by
  simp only [inUnitInterval, Scalar.isNaN, Scalar.less, Bool.and_eq_true, Bool.not_eq_true',
    decide_eq_false_iff_not] at h
  exact Double.value_mem_unitInterval h.1.1 h.1.2 h.2

namespace Satisfaction

variable {s : Satisfaction Float}

/-- Before anything is counted. -/
theorem counted_zero : Counted ⟨0, 0⟩ :=
  ⟨rfl, Double.value_zero.ge, by rw [Double.value_zero]; positivity⟩

/-- One degree more is counted: the sum is rounded and stays bounded. -/
theorem Counted.add (hs : s.Counted) {d : Float} (hd : inUnitInterval d = true) :
    Counted ⟨s.groundings + 1, s.satisfied + d⟩ ∧
      Double.RoundsTo (Double.value s.satisfied + Double.value d)
        (Double.value (s.satisfied + d)) := by
  obtain ⟨hfinite, hnonneg, hle⟩ := value_of_inUnitInterval hd
  have hbound : Double.value s.satisfied + Double.value d ≤ 2 ^ 54 + 1 :=
    add_le_add hs.le_two_pow hle
  have hsmall : (2 : ℚ) ^ 54 + 1 < 2 ^ 1023 :=
    calc (2 : ℚ) ^ 54 + 1 < 2 ^ 55 := by norm_num
      _ ≤ 2 ^ 1023 := pow_le_pow_right₀ one_le_two (by norm_num)
  obtain ⟨hsum, hrounds⟩ := Double.value_add hs.finite hfinite hs.nonneg hnonneg
    (hbound.trans_lt hsmall)
  exact ⟨⟨hsum, hrounds.nonneg, hrounds.le_two_pow le_rfl hbound⟩, hrounds⟩

end Satisfaction

/-- **What is counted stays finite**, however many groundings there are. -/
theorem counted_of_satisfaction {net : Network Float} {mode : EvidenceMode} {i : ℕ}
    {s : Satisfaction Float} (h : net.satisfaction mode i = .ok s) : s.Counted :=
  satisfaction_induction (fun _ _ _ hs _ hd => (hs.add hd).1) Satisfaction.counted_zero h

/-- If degrees are truth values, nothing is satisfied or as much as one grounding. -/
theorem one_le_of_satisfaction_hard {net : Network Float} {i : ℕ} {s : Satisfaction Float}
    (h : net.satisfaction .hard i = .ok s) :
    Double.value s.satisfied = 0 ∨ 1 ≤ Double.value s.satisfied := by
  let P (s : Satisfaction Float) : Prop :=
    s.Counted ∧ (Double.value s.satisfied = 0 ∨ 1 ≤ Double.value s.satisfied)
  have hP : P s := by
    refine satisfaction_induction ?_ ⟨Satisfaction.counted_zero, .inl Double.value_zero⟩ h
    rintro s g d ⟨hs, hsatisfied⟩ hdegree hd
    obtain ⟨hs', hrounds⟩ := hs.add hd
    refine ⟨hs', ?_⟩
    obtain ⟨truth, -, rfl⟩ := map_eq_ok_iff.1 hdegree
    obtain ⟨-, hnonneg, -⟩ := value_of_inUnitInterval hd
    cases truth with
    | true =>
        have hd' : Double.value (degreeOf true) = 1 := Double.value_one
        exact .inr (hrounds.one_le (by linarith [hs.nonneg]))
    | false =>
        have hd' : Double.value (degreeOf false) = 0 := Double.value_zero
        rcases hsatisfied with hsatisfied | hsatisfied
        · refine .inl (hrounds.eq_zero_iff.2 ?_)
          rw [hsatisfied, hd', add_zero]
          positivity
        · exact .inr (hrounds.one_le (by linarith))
  exact hP.2

/-! ### The share -/

/-- A count that is not zero is finite and at least one as a double, or it is infinite. -/
theorem ofCount_finite_or_infinity {n : ℕ} (hn : 0 < n) :
    (Scalar.ofCount n : Float).isFinite = true ∧ 1 ≤ Double.value (Scalar.ofCount n) ∨
      2 ^ 1023 ≤ (n : ℚ) ∧
        (Scalar.ofCount n : Float).toModel.unpack = .infinity .positive :=
  (Double.yields_ofNat hn).finite_or_infinity.imp_left fun ⟨hfinite, hrounds⟩ =>
    ⟨hfinite, hrounds.one_le (by exact_mod_cast hn)⟩

namespace Satisfaction

/-- The satisfied share of the groundings, their number taken as a double, is more than half of the
least positive double. -/
def Perceptible (s : Satisfaction Float) : Prop :=
  (Scalar.ofCount s.groundings : Float).isFinite = true ∧
    Double.value (Scalar.ofCount s.groundings) < 2 ^ 1075 * Double.value s.satisfied

variable {s : Satisfaction Float}

/-- If the number of the groundings is finite as a double, the share is the exact share, rounded. -/
theorem Counted.yields_ratio (hs : s.Counted) (hpos : 0 < Double.value s.satisfied)
    (hcount : (Scalar.ofCount s.groundings : Float).isFinite = true)
    (hone : 1 ≤ Double.value (Scalar.ofCount s.groundings)) :
    Double.Yields s.ratio.toModel.unpack
        (Double.value s.satisfied / Double.value (Scalar.ofCount s.groundings)) ∧
      Double.value s.satisfied / Double.value (Scalar.ofCount s.groundings) < 2 ^ 1023 := by
  refine ⟨Double.yields_div hs.finite hcount hpos (zero_lt_one.trans_le hone), ?_⟩
  calc Double.value s.satisfied / Double.value (Scalar.ofCount s.groundings)
      ≤ Double.value s.satisfied := div_le_self hs.nonneg hone
    _ ≤ 2 ^ 54 := hs.le_two_pow
    _ < 2 ^ 1023 := pow_lt_pow_right₀ one_lt_two (by norm_num)

/-- The share is above the bound for what is rounded to zero if and only if it is perceptible. -/
theorem share_le_iff {c z : ℚ} (hz : 0 < z) :
    c / z ≤ 2 ^ (-1075 : ℤ) ↔ ¬z < 2 ^ 1075 * c := by
  rw [div_le_iff₀ hz, not_lt, zpow_neg, le_inv_mul_iff₀ (by positivity)]
  rfl

/-- **A perceptible share is positive and finite.** -/
theorem Counted.ratio_of_perceptible (hs : s.Counted) (hg : 0 < s.groundings)
    (hpos : 0 < Double.value s.satisfied) (h : s.Perceptible) :
    s.ratio.isFinite = true ∧ 0 < s.ratio := by
  obtain ⟨hcount, hlt⟩ := h
  rcases ofCount_finite_or_infinity hg with ⟨-, hone⟩ | ⟨-, hinfinity⟩
  · obtain ⟨hyields, hsmall⟩ := hs.yields_ratio hpos hcount hone
    obtain ⟨hfinite, hrounds⟩ := hyields.finite hsmall
    have hne : Double.value s.ratio ≠ 0 := fun hzero =>
      (share_le_iff (zero_lt_one.trans_le hone)).1 (hrounds.eq_zero_iff.1 hzero) hlt
    exact ⟨hfinite, (Double.zero_lt_iff hfinite).2 (lt_of_le_of_ne hrounds.nonneg hne.symm)⟩
  · change (Scalar.ofCount s.groundings : Float).toModel.unpack.isFinite = true at hcount
    rw [hinfinity] at hcount
    cases hcount

/-- **Any other share is rounded to zero.** -/
theorem Counted.ratio_of_not_perceptible (hs : s.Counted) (hg : 0 < s.groundings)
    (hpos : 0 < Double.value s.satisfied) (h : ¬s.Perceptible) : s.ratio = 0 := by
  have hunpack : s.ratio.toModel.unpack = .zero .positive := by
    rcases ofCount_finite_or_infinity hg with ⟨hcount, hone⟩ | ⟨-, hinfinity⟩
    · obtain ⟨hyields, -⟩ := hs.yields_ratio hpos hcount hone
      refine hyields.eq_zero ((share_le_iff (zero_lt_one.trans_le hone)).2 fun hlt => ?_)
      exact h ⟨hcount, hlt⟩
    · exact Double.unpack_div_infinity hs.finite hpos hinfinity
  exact Double.eq_of_unpack_eq hunpack

/-- If as much as one grounding of less than `2 ^ 64` is satisfied, the share is perceptible. -/
theorem perceptible_of_one_le (hg : 0 < s.groundings) (hlt : s.groundings < 2 ^ 64)
    (hsatisfied : 1 ≤ Double.value s.satisfied) : s.Perceptible := by
  have hsmall : (s.groundings : ℚ) < 2 ^ 1023 := by
    have hbits : (s.groundings : ℚ) < 2 ^ 64 := by exact_mod_cast hlt
    exact hbits.trans (pow_lt_pow_right₀ one_lt_two (by norm_num))
  rcases ofCount_finite_or_infinity hg with ⟨hcount, hone⟩ | ⟨hlarge, -⟩
  · refine ⟨hcount, ?_⟩
    calc Double.value (Scalar.ofCount s.groundings)
        < 2 ^ 1024 := Double.value_lt hcount (zero_le_one.trans hone)
      _ ≤ 2 ^ 1075 := pow_le_pow_right₀ one_le_two (by norm_num)
      _ ≤ 2 ^ 1075 * Double.value s.satisfied :=
          le_mul_of_one_le_right (by positivity) hsatisfied
  · exact absurd hlarge (not_le.2 hsmall)

end Satisfaction

/-! ### The weight -/

namespace Network

section Logarithm

variable [ExpLog Float]

/-- A weight is refused if there are no groundings or nothing is satisfied, else it is derived. -/
theorem weightFrom_eq (net : Network Float) (i : ℕ) {s : Satisfaction Float} (hs : s.Counted) :
    net.weightFrom i s =
      if s.groundings = 0 then
        .error (.degenerateStatistics i (net.label i) s.groundings s.satisfied
          "formula has no groundings in the training database")
      else if 0 < Double.value s.satisfied then
        .ok ⟨i, net.label i, s.ratio, ExpLog.log s.ratio⟩
      else
        .error (.degenerateStatistics i (net.label i) s.groundings s.satisfied
          "no grounding is satisfied, ln(0) is -infinity") := by
  have hless : Scalar.less 0 s.satisfied = decide (0 < Double.value s.satisfied) :=
    decide_eq_decide.2 (Double.zero_lt_iff hs.finite)
  simp only [weightFrom, hless, decide_eq_true_eq]

/-- A formula that was fixed has groundings, of which something is satisfied, and its weight is the
logarithm of their share. -/
theorem exists_satisfaction_of_fixFormula {net : Network Float} {mode : EvidenceMode} {i : ℕ}
    {f : FixedFormula Float} (h : net.fixFormula mode i = .ok f) :
    ∃ s, net.satisfaction mode i = .ok s ∧ s.Counted ∧ 0 < s.groundings ∧
      0 < Double.value s.satisfied ∧ f.weight = ExpLog.log s.ratio := by
  obtain ⟨s, hs, hweight⟩ := bind_eq_ok_iff.1 h
  have hcounted := counted_of_satisfaction hs
  rw [weightFrom_eq net i hcounted] at hweight
  split at hweight
  · cases hweight
  · rename_i hg
    split at hweight
    · rename_i hpos
      cases hweight
      exact ⟨s, hs, hcounted, Nat.pos_of_ne_zero hg, hpos, rfl⟩
    · cases hweight

/-- **A derived weight is finite if and only if the share is perceptible**, and otherwise it is the
negative infinity.  With truth values as degrees it always is, and refused are the formulas of which
there are no groundings or nothing is satisfied, no others. -/
theorem derived_weight_finite_iff
    (hlog : ∀ x : Float, x.isFinite = true → 0 < x → (ExpLog.log x).isFinite = true)
    (hlog₀ : ExpLog.log (0 : Float) = -(1.0 / 0.0)) (net : Network Float) (mode : EvidenceMode) :
    (∀ i s, net.satisfaction mode i = .ok s →
      if s.groundings = 0 ∨ Double.value s.satisfied = 0 then
        ∃ reason, net.fixFormula mode i =
          .error (.degenerateStatistics i (net.label i) s.groundings s.satisfied reason)
      else net.fixFormula mode i = .ok ⟨i, net.label i, s.ratio, ExpLog.log s.ratio⟩) ∧
    ∀ fixed, net.fixedWeights mode = .ok fixed → ∀ i w, fixed.find? i = some w →
      ∃ s, net.satisfaction mode i = .ok s ∧ 0 < s.groundings ∧ 0 < Double.value s.satisfied ∧
        w = ExpLog.log s.ratio ∧ (w.isFinite = true ↔ s.Perceptible) ∧
        (¬s.Perceptible → w = -(1.0 / 0.0)) ∧
        (mode = .hard → s.groundings < 2 ^ 64 → s.Perceptible) := by
  constructor
  · intro i s hs
    have hcounted := counted_of_satisfaction hs
    have hfix : net.fixFormula mode i = net.weightFrom i s := by
      rw [fixFormula, hs]
      rfl
    rw [hfix, weightFrom_eq net i hcounted]
    by_cases hg : s.groundings = 0
    · rw [if_pos (.inl hg), if_pos hg]
      exact ⟨_, rfl⟩
    · rw [if_neg hg]
      by_cases hzero : Double.value s.satisfied = 0
      · rw [if_pos (.inr hzero), if_neg hzero.not_gt]
        exact ⟨_, rfl⟩
      · rw [if_neg (not_or.2 ⟨hg, hzero⟩), if_pos (lt_of_le_of_ne hcounted.nonneg (Ne.symm hzero))]
  · intro fixed hfixed i w hw
    obtain ⟨f, hf, rfl⟩ := exists_fixFormula_of_find? hfixed hw
    obtain ⟨s, hs, hcounted, hg, hpos, hweight⟩ := exists_satisfaction_of_fixFormula hf
    have hinfinite (h : ¬s.Perceptible) : f.weight = -(1.0 / 0.0) := by
      rw [hweight, hcounted.ratio_of_not_perceptible hg hpos h, hlog₀]
    refine ⟨s, hs, hg, hpos, hweight, ⟨?_, ?_⟩, hinfinite, ?_⟩
    · intro hfinite
      by_contra h
      rw [hinfinite h] at hfinite
      cases hfinite
    · intro h
      obtain ⟨hratio, hratio₀⟩ := hcounted.ratio_of_perceptible hg hpos h
      rw [hweight]
      exact hlog _ hratio hratio₀
    · rintro rfl hlt
      have hone := (one_le_of_satisfaction_hard hs).resolve_left hpos.ne'
      exact Satisfaction.perceptible_of_one_le hg hlt hone

end Logarithm

/-- A logarithm that is right at zero and at one. -/
@[reducible] def roughLog : ExpLog Float where
  exp := Float.exp
  log x := if 0 < x then 0 else -(1.0 / 0.0)

theorem isFinite_roughLog (x : Float) (h : 0 < x) : (roughLog.log x).isFinite = true := by
  have hzero : roughLog.log x = 0 := if_pos h
  rw [hzero]
  rfl

/-- Two formulas whose weights are to be fixed.  Of the two groundings of the first the least
positive degree is satisfied; of the second formula everything is. -/
def faint : Network Float where
  formulaCount := 2
  weight _ := .ok 0
  fixedFormulas := [0, 1]
  groundings
    | 0 => .ok [.ok ⟨.ok true, .ok (.ofBits 1)⟩, .ok ⟨.ok true, .ok 0⟩]
    | _ => .ok [.ok ⟨.ok true, .ok 1⟩]

theorem fixedWeights_faint : @fixedWeights Float _ _ _ _ _ roughLog faint .soft =
    .ok (.ofList [(0, -(1.0 / 0.0)), (1, 0)]) := rfl

/-- The first share is rounded to zero although something is satisfied, and the second is one. -/
theorem derived_weight_finite_iff_faint :
    ∃ fixed, @fixedWeights Float _ _ _ _ _ roughLog faint .soft = .ok fixed ∧
      (∃ s, faint.satisfaction .soft 0 = .ok s ∧ 0 < Double.value s.satisfied ∧ ¬s.Perceptible ∧
        fixed.find? 0 = some (-(1.0 / 0.0))) ∧
      ∃ s, faint.satisfaction .soft 1 = .ok s ∧ s.Perceptible ∧ fixed.find? 1 = some 0 := by
  obtain ⟨-, h⟩ := @derived_weight_finite_iff roughLog (fun x _ => isFinite_roughLog x) rfl faint
    .soft
  obtain ⟨s₀, hs₀, -, hpos, -, hiff₀, -⟩ := h _ fixedWeights_faint 0 _ rfl
  obtain ⟨s₁, hs₁, -, -, -, hiff₁, -⟩ := h _ fixedWeights_faint 1 _ rfl
  refine ⟨_, fixedWeights_faint, ⟨s₀, hs₀, hpos, fun hp => ?_, rfl⟩, s₁, hs₁, hiff₁.1 rfl, rfl⟩
  exact absurd (hiff₀.2 hp) (by decide)

/-- **So a weight that is not finite can be derived**, although something is satisfied. -/
theorem infinite_weight_derived :
    ¬∀ [ExpLog Float], (∀ x : Float, x.isFinite = true → 0 < x → (ExpLog.log x).isFinite = true) →
      ExpLog.log (0 : Float) = -(1.0 / 0.0) →
      ∀ (net : Network Float) (mode : EvidenceMode) (fixed : FixedWeights Float),
        net.fixedWeights mode = .ok fixed →
          ∀ i w, fixed.find? i = some w → w.isFinite = true := by
  intro h
  have hfinite := @h roughLog (fun x _ => isFinite_roughLog x) rfl faint .soft _ fixedWeights_faint
    0 _ rfl
  cases hfinite

end Network

end MarkovLogic
