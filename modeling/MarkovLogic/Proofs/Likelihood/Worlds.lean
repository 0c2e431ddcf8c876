/-
**The likelihood of worlds over the reals.**

Over the reals the shift by the largest score does not show, so the logarithm of a sum of
exponentials is what it is called, and value and gradient of the likelihood are sums over the
worlds: a world has a probability proportional to the exponential of its score, the value adds up
the logarithms of the probabilities of the training worlds, and the gradient is the counts observed
in them less those expected.

Main definitions:

* `WorldTable.count`, `WorldTable.score` — the count of a formula in a world, and a world's score;
* `WorldTable.normalizer`, `WorldTable.probability` — the sum of the exponentials of the scores, and
  the share of a world in it.

Main results:

* `logSumExp_eq_log_sum` — **the logarithm of a sum of exponentials**;
* `Exhaustive.value_eq`, `Exhaustive.gradient_eq` — **value and gradient as sums over the worlds**.
-/
import MarkovLogic.Proofs.Likelihood.Tables
import MarkovLogic.Proofs.Scalar.Reals

set_option autoImplicit false

namespace MarkovLogic

/-! ### The logarithm of a sum of exponentials -/

/-- Real numbers that follow a largest one keep it or raise it. -/
theorem exists_foldl_raisePeak (xs : List ℝ) (m : ℝ) :
    ∃ m', xs.foldl raisePeak (some m) = some m' := by
  induction xs generalizing m with
  | nil => exact ⟨m, rfl⟩
  | cons x xs ih => exact ih (if Scalar.less m x then x else m)

/-- There is a largest of some real numbers. -/
theorem exists_peak? {xs : List ℝ} (h : xs ≠ []) : ∃ m, peak? xs = some m := by
  cases xs with
  | nil => exact absurd rfl h
  | cons x xs => exact exists_foldl_raisePeak xs x

/-- **The logarithm of a sum of exponentials**, whatever number is taken out of the sum. -/
theorem logSumExp_eq_log_sum {xs : List ℝ} (h : xs ≠ []) :
    logSumExp xs = Real.log (xs.map Real.exp).sum := by
  obtain ⟨m, hm⟩ := exists_peak? h
  have hshift : (xs.map fun x => Real.exp (x - m)).sum = Real.exp (-m) * (xs.map Real.exp).sum := by
    rw [← List.sum_map_mul_left]
    refine congrArg List.sum (List.map_congr_left fun x _ => ?_)
    rw [← Real.exp_add, neg_add_eq_sub]
  have hpositive : 0 < (xs.map Real.exp).sum :=
    List.sum_pos _ (List.forall_mem_map.2 fun x _ => Real.exp_pos x) (by simpa using h)
  calc logSumExp xs = m + Real.log (xs.map fun x => Real.exp (x - m)).sum := by
        simp [logSumExp, hm, blockedSum_eq_sum]
    _ = m + (-m + Real.log (xs.map Real.exp).sum) := by
        rw [hshift, Real.log_mul (Real.exp_ne_zero _) hpositive.ne', Real.log_exp]
    _ = Real.log (xs.map Real.exp).sum := by ring

/-! ### Worlds -/

namespace WorldTable

variable {n : ℕ}

/-- How often formula `j` is satisfied in world `x`. -/
def count (t : WorldTable ℝ n) (x : Fin t.worlds.size) (j : Fin n) : ℝ := t.worlds[x].get j

/-- The score of world `x`. -/
noncomputable def score (t : WorldTable ℝ n) (w : Vector ℝ n) (x : Fin t.worlds.size) : ℝ :=
  ∑ j, t.count x j * w.get j

/-- The sum of the exponentials of the scores. -/
noncomputable def normalizer (t : WorldTable ℝ n) (w : Vector ℝ n) : ℝ :=
  ∑ x, Real.exp (t.score w x)

/-- The probability of world `x`. -/
noncomputable def probability (t : WorldTable ℝ n) (w : Vector ℝ n) (x : Fin t.worlds.size) : ℝ :=
  Real.exp (t.score w x) / t.normalizer w

theorem get_scores (t : WorldTable ℝ n) (w : Vector ℝ n) (x : Fin t.worlds.size) :
    (t.scores w).get x = t.score w x := by
  simp [scores, score, count, Arrow.dot_eq_sum]

theorem toList_scores (t : WorldTable ℝ n) (w : Vector ℝ n) :
    (t.scores w).toList = List.ofFn (t.score w) := by
  apply List.ext_getElem
  · simp
  · intro x h₁ h₂
    rw [Vector.getElem_toList, List.getElem_ofFn]
    exact t.get_scores w ⟨x, by simpa using h₂⟩

variable {t : WorldTable ℝ n}

/-- If there are worlds, the sum of their exponentials is positive. -/
theorem normalizer_pos (h : 0 < t.worlds.size) (w : Vector ℝ n) : 0 < t.normalizer w :=
  Finset.sum_pos (fun _ _ => Real.exp_pos _) ⟨⟨0, h⟩, Finset.mem_univ _⟩

theorem probability_nonneg (w : Vector ℝ n) (x : Fin t.worlds.size) : 0 ≤ t.probability w x :=
  div_nonneg (Real.exp_pos _).le (Finset.sum_nonneg fun _ _ => (Real.exp_pos _).le)

/-- The probabilities add up to one. -/
theorem sum_probability (h : 0 < t.worlds.size) (w : Vector ℝ n) : ∑ x, t.probability w x = 1 := by
  simp only [probability]
  rw [← Finset.sum_div]
  exact div_self (normalizer_pos h w).ne'

/-- The logarithm of the normalizer is what is taken off every score. -/
theorem logSumExp_scores (h : 0 < t.worlds.size) (w : Vector ℝ n) :
    logSumExp (t.scores w).toList = Real.log (t.normalizer w) := by
  have hne : (t.scores w).toList ≠ [] := List.ne_nil_of_length_pos (by simpa using h)
  rw [logSumExp_eq_log_sum hne, toList_scores, List.map_ofFn, List.sum_ofFn]
  rfl

/-- The expected count of formula `j` under given shares of the worlds. -/
theorem weigh_eq (p : Vector ℝ t.worlds.size) (j : Fin n) :
    t.weigh p j = ∑ x, t.count x j * p.get x := by
  have hterms : List.zipWith (fun world q => world[j] * q) t.worlds.toList p.toList =
      List.ofFn fun x : Fin t.worlds.size => t.count x j * p.get x := by
    apply List.ext_getElem
    · simp
    · intro x h₁ h₂
      simp [count, Vector.get_eq_getElem]
  rw [weigh, hterms, blockedSum_eq_sum, runningSum_eq_sum, ite_self, List.sum_ofFn]

end WorldTable

/-! ### The likelihood -/

namespace Exhaustive

variable {n : ℕ} (e : Exhaustive ℝ n)

/-- There are worlds, since some were observed. -/
theorem worlds_pos : 0 < e.table.worlds.size := by
  obtain ⟨d, -⟩ := List.exists_mem_of_ne_nil _ e.observedSome
  exact d.pos

/-- The counts of the training worlds, added up. -/
theorem get_observed (j : Fin n) :
    e.observed.get j = (e.training.map fun d => e.table.count d j).sum := by
  rw [e.get_observed_eq_runningSum, runningSum_eq_sum]
  rfl

/-- **The value as a sum over the training worlds**: of each the logarithm of its probability. -/
theorem value_eq (w : Vector ℝ n) : e.value w =
    (e.training.map fun d => e.table.score w d - Real.log (e.table.normalizer w)).sum := by
  have hscore : ∀ d : Fin e.table.worlds.size, (e.table.scores w)[d] = e.table.score w d :=
    e.table.get_scores w
  simp only [value, runningSum_eq_sum, hscore, WorldTable.logSumExp_scores e.worlds_pos]

/-- **The gradient as a sum over the worlds**: the counts observed less those expected. -/
theorem gradient_eq (w : Vector ℝ n) (j : Fin n) :
    (e.gradient w).get j = (e.training.map fun d => e.table.count d j).sum -
      (∑ x, e.table.count x j * e.table.probability w x) * e.training.length := by
  have hshare : ∀ x : Fin e.table.worlds.size, ((e.table.scores w).map fun s =>
      ExpLog.exp (s - logSumExp (e.table.scores w).toList)).get x = e.table.probability w x := by
    intro x
    rw [Vector.get_map, WorldTable.get_scores,
      WorldTable.logSumExp_scores e.worlds_pos, ExpLog.exp_real, Real.exp_sub,
      Real.exp_log (WorldTable.normalizer_pos e.worlds_pos w)]
    rfl
  have hexpected : e.table.weigh ((e.table.scores w).map fun s =>
      ExpLog.exp (s - logSumExp (e.table.scores w).toList)) j =
        ∑ x, e.table.count x j * e.table.probability w x := by
    simp only [WorldTable.weigh_eq, hshare]
  rw [← e.get_observed, ← hexpected]
  simp [gradient, Vector.get_eq_getElem]

end Exhaustive

end MarkovLogic
