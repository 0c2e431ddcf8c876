/-
**A vanishing gradient is an optimum.**

From one vector of weights to another the scores change by amounts that are linear in the weights,
and by Jensen's inequality the logarithm of the normalizer grows by at least the expected change.
So the value lies below its tangent at every point.  What the fixed weights are does not matter,
because expanded vectors differ at the free weights alone.

Main results:

* `WorldTable.expected_change_le` — **the logarithm of the normalizer lies above its tangents**;
* `Exhaustive.value_le_tangent`, `Exhaustive.reducedValue_le_tangent` — **the value lies below its
  own**;
* `Exhaustive.stationary_is_optimal` — **where the gradient vanishes, the value is largest**.
-/
import MarkovLogic.Proofs.Likelihood.Derivative

set_option autoImplicit false

namespace MarkovLogic

/-! ### Tangents -/

/-- A function that lies below its tangents is concave. -/
theorem concaveOn_of_le_tangent {ι : Type} [Fintype ι] {f : (ι → ℝ) → ℝ} {g : (ι → ℝ) → ι → ℝ}
    (h : ∀ x y, f y ≤ f x + ∑ i, g x i * (y i - x i)) : ConcaveOn ℝ Set.univ f := by
  refine ⟨convex_univ, fun x _ y _ a b ha hb hab => ?_⟩
  let z := a • x + b • y
  have hx := mul_le_mul_of_nonneg_left (h z x) ha
  have hy := mul_le_mul_of_nonneg_left (h z y) hb
  have hz : a * ∑ i, g z i * (x i - z i) + b * ∑ i, g z i * (y i - z i) = 0 := by
    rw [Finset.mul_sum, Finset.mul_sum, ← Finset.sum_add_distrib]
    refine Finset.sum_eq_zero fun i _ => ?_
    have hi : z i = a * x i + b * y i := rfl
    calc a * (g z i * (x i - z i)) + b * (g z i * (y i - z i))
        = g z i * (a * x i + b * y i - (a + b) * z i) := by ring
      _ = 0 := by rw [hab, hi]; ring
  have hf : a * f z + b * f z = f z := by rw [← add_mul, hab, one_mul]
  simp only [smul_eq_mul]
  linarith only [hx, hy, hz, hf]

/-! ### The normalizer -/

namespace WorldTable

variable {n : ℕ} {t : WorldTable ℝ n}

/-- Between two vectors of weights a score changes by the weighted changes. -/
theorem score_sub_score (t : WorldTable ℝ n) (v w : Vector ℝ n) (x : Fin t.worlds.size) :
    t.score v x - t.score w x = ∑ j : Fin n, t.count x j * (v.get j - w.get j) := by
  simp only [score, ← Finset.sum_sub_distrib, mul_sub]

/-- One normalizer is the other times the expected exponential of the change. -/
theorem normalizer_eq_mul (h : 0 < t.worlds.size) (v w : Vector ℝ n) :
    t.normalizer v =
      t.normalizer w * ∑ x, t.probability w x * Real.exp (t.score v x - t.score w x) := by
  have hZ : t.normalizer w ≠ 0 := (normalizer_pos h w).ne'
  rw [normalizer, Finset.mul_sum]
  refine Finset.sum_congr rfl fun x _ => ?_
  rw [probability, Real.exp_sub]
  field_simp

/-- **The logarithm of the normalizer lies above its tangents**: it grows by at least the expected
change of the score. -/
theorem expected_change_le (h : 0 < t.worlds.size) (v w : Vector ℝ n) :
    ∑ x, t.probability w x * (t.score v x - t.score w x) ≤
      Real.log (t.normalizer v) - Real.log (t.normalizer w) := by
  have hjensen : Real.exp (∑ x, t.probability w x * (t.score v x - t.score w x)) ≤
      ∑ x, t.probability w x * Real.exp (t.score v x - t.score w x) := by
    simpa only [smul_eq_mul] using convexOn_exp.map_sum_le (fun x _ => probability_nonneg w x)
      (sum_probability h w) (fun x _ => Set.mem_univ (t.score v x - t.score w x))
  rw [le_sub_iff_add_le', ← Real.exp_le_exp, Real.exp_add, Real.exp_log (normalizer_pos h w),
    Real.exp_log (normalizer_pos h v), normalizer_eq_mul h v w]
  exact mul_le_mul_of_nonneg_left hjensen (normalizer_pos h w).le

end WorldTable

/-! ### The likelihood -/

namespace Exhaustive

variable {n : ℕ} (e : Exhaustive ℝ n)

/-- The gradient in the direction of `v` is the change of the scores of the training worlds less the
change that is expected. -/
theorem sum_gradient_mul (w : Vector ℝ n) (v : Fin n → ℝ) :
    ∑ j : Fin n, (e.gradient w).get j * v j =
      ∑ k : Fin e.training.length, ∑ j, e.table.count (e.training.get k) j * v j -
        e.training.length * ∑ x, e.table.probability w x * ∑ j, e.table.count x j * v j := by
  simp only [e.gradient_eq, ← Fin.sum_univ_fun_getElem, sub_mul, Finset.sum_sub_distrib,
    Finset.sum_mul, Finset.mul_sum]
  rw [Finset.sum_comm]
  refine congrArg₂ _ rfl ?_
  rw [Finset.sum_comm]
  exact Finset.sum_congr rfl fun x _ => Finset.sum_congr rfl fun j _ => by ring

/-- **The value lies below its tangents.** -/
theorem value_le_tangent (v w : Vector ℝ n) :
    e.value v ≤ e.value w + Arrow.dot (e.gradient w) (Arrow.sub v w) := by
  have hlog := WorldTable.expected_change_le e.worlds_pos v w
  have hscaled := mul_le_mul_of_nonneg_left hlog (Nat.cast_nonneg (α := ℝ) e.training.length)
  have hscores : ∑ k : Fin e.training.length, e.table.score v (e.training.get k) -
      ∑ k : Fin e.training.length, e.table.score w (e.training.get k) =
        ∑ k : Fin e.training.length,
          ∑ j, e.table.count (e.training.get k) j * (v.get j - w.get j) := by
    simp only [← Finset.sum_sub_distrib, WorldTable.score_sub_score]
  simp only [Arrow.dot_eq_sum, Arrow.get_sub]
  rw [e.sum_gradient_mul, e.value_eq_sub, e.value_eq_sub, ← hscores]
  simp only [← WorldTable.score_sub_score]
  linarith only [hscaled]

variable (p : Partition ℝ n)

/-- **So it does as a function of the free weights.** -/
theorem reducedValue_le_tangent (r s : Vector ℝ p.freeCount) :
    e.reducedValue p s ≤
      e.reducedValue p r + Arrow.dot (e.reducedGradient p r) (Arrow.sub s r) := by
  have h := e.value_le_tangent (p.expand s) (p.expand r)
  rwa [p.dot_sub_expand] at h

/-- Where the reduced gradient vanishes, no free weights do better. -/
theorem reducedValue_le_of_stationary {r : Vector ℝ p.freeCount}
    (hr : e.reducedGradient p r = Vector.replicate p.freeCount 0) (s : Vector ℝ p.freeCount) :
    e.reducedValue p s ≤ e.reducedValue p r := by
  have h := e.reducedValue_le_tangent p r s
  rw [hr, Arrow.dot_eq_sum] at h
  simpa using h

/-- **The log-likelihood is concave in the free weights.** -/
theorem concaveOn_reducedValue :
    ConcaveOn ℝ Set.univ fun x : Fin p.freeCount → ℝ => e.reducedValue p (Vector.ofFn x) := by
  refine concaveOn_of_le_tangent (g := fun x k => (e.reducedGradient p (Vector.ofFn x)).get k) ?_
  intro x y
  have h := e.reducedValue_le_tangent p (Vector.ofFn x) (Vector.ofFn y)
  simp only [Arrow.dot_eq_sum, Arrow.get_sub] at h
  simpa using h

/-- **Where the gradient vanishes, the value is largest**, so the likelihood has one value at all
such points. -/
theorem stationary_is_optimal (e : Exhaustive ℝ n) (p : Partition ℝ n) :
    (∀ r : Vector ℝ p.freeCount,
      ((p.evaluate r.toArray).run e.objective.respond ()).result =
        some (.ok (e.reducedValue p r)) ∧
      ((p.evaluateGradient r.toArray).run e.objective.respond ()).result =
        some (.ok (e.reducedGradient p r).toArray)) ∧
    (∀ r s : Vector ℝ p.freeCount, e.reducedValue p s ≤
      e.reducedValue p r + Arrow.dot (e.reducedGradient p r) (Arrow.sub s r)) ∧
    (ConcaveOn ℝ Set.univ fun x : Fin p.freeCount → ℝ => e.reducedValue p (Vector.ofFn x)) ∧
    ∀ r : Vector ℝ p.freeCount, e.reducedGradient p r = Vector.replicate p.freeCount 0 →
      (∀ s : Vector ℝ p.freeCount, e.reducedValue p s ≤ e.reducedValue p r) ∧
      ∀ s : Vector ℝ p.freeCount, e.reducedGradient p s = Vector.replicate p.freeCount 0 →
        e.reducedValue p s = e.reducedValue p r := by
  refine ⟨fun r => ⟨e.result_evaluate p r, e.result_evaluateGradient p r⟩,
    e.reducedValue_le_tangent p, e.concaveOn_reducedValue p, fun r hr => ?_⟩
  refine ⟨e.reducedValue_le_of_stationary p hr, fun s hs => ?_⟩
  exact le_antisymm (e.reducedValue_le_of_stationary p hr s)
    (e.reducedValue_le_of_stationary p hs r)

/-- One formula that holds in one of two worlds, both of them observed. -/
def coin : Exhaustive ℝ 1 where
  table := ⟨#[#v[0], #v[1]]⟩
  training := [0, 1]
  observedSome := List.cons_ne_nil _ _
  finite := rfl

/-- With weight zero both worlds are equally likely, and as many are expected as were observed. -/
theorem gradient_coin : coin.gradient #v[0] = #v[0] := by
  have hscore : ∀ x, coin.table.score #v[0] x = 0 := fun x => by simp [WorldTable.score]
  have hhalf : ∀ x, coin.table.probability #v[0] x = 1 / 2 := fun x => by
    have hcard : coin.table.worlds.size = 2 := rfl
    simp [WorldTable.probability, WorldTable.normalizer, hscore, hcard]
  have hobserved : (coin.training.map fun d => coin.table.count d 0).sum = 1 := by
    simp [coin, WorldTable.count]
  have hexpected : ∑ x, coin.table.count x 0 = 1 := by
    change ∑ x : Fin 2, coin.table.count x 0 = 1
    rw [Fin.sum_univ_two]
    simp [coin, WorldTable.count]
  have hentry : (coin.gradient #v[0]).get 0 = 0 := by
    have hlength : coin.training.length = 2 := rfl
    rw [gradient_eq, hobserved]
    simp only [hhalf, ← Finset.sum_mul, hexpected, hlength]
    norm_num
  apply Vector.ext
  intro j hj
  obtain rfl : j = 0 := by omega
  exact hentry

/-- Weight zero is an optimum if both worlds were observed once. -/
theorem stationary_is_optimal_coin :
    let p : Partition ℝ 1 := ⟨#v[none]⟩
    coin.reducedGradient p (Vector.replicate p.freeCount 0) = Vector.replicate p.freeCount 0 ∧
      ∀ s, coin.reducedValue p s ≤ coin.reducedValue p (Vector.replicate p.freeCount 0) := by
  intro p
  have hexpand : p.expand (Vector.replicate p.freeCount 0) = #v[0] := rfl
  have hstationary : coin.reducedGradient p (Vector.replicate p.freeCount 0) =
      Vector.replicate p.freeCount 0 := by
    rw [reducedGradient, hexpand, gradient_coin]
    rfl
  exact ⟨hstationary, ((stationary_is_optimal coin p).2.2.2 _ hstationary).1⟩

end Exhaustive

end MarkovLogic
