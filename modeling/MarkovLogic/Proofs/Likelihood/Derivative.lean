/-
**The gradient is the derivative.**

Value and gradient of the likelihood are computed apart: the value takes a logarithm off every
score, the gradient forms probabilities and weighs the counts with them.  Over the reals they belong
together.  A score is affine in every weight, so the logarithm of the normalizer has the expected
count as its derivative, and the value has the gradient.  The same holds of the free weights alone,
because to change a free weight and expand is to change one weight of the expanded vector.

Main definitions:

* `Exhaustive.reducedValue`, `Exhaustive.reducedGradient` — the likelihood of the free weights;
* `IsGradient` — every entry of the one is the partial derivative of the other.

Main results:

* `Exhaustive.result_evaluate`, `Exhaustive.result_evaluateGradient` — what the likelihood answers
  when it is consulted about the free weights;
* `Exhaustive.hasDerivAt_value` — **the gradient is the derivative of the value**;
* `Exhaustive.gradient_is_derivative` — **in full and of the free weights alone**.
-/
import MarkovLogic.Likelihood.Reduced
import MarkovLogic.Proofs.Likelihood.Tables
import MarkovLogic.Proofs.Likelihood.Worlds
import MarkovLogic.Proofs.Weights.Positions

set_option autoImplicit false

namespace MarkovLogic

/-! ### The likelihood of the free weights -/

/-- Of a gradient of the right length the free entries are kept. -/
theorem Partition.reduceGradient_toArray {R : Type} {n : ℕ} (p : Partition R n) (g : Vector R n) :
    p.reduceGradient (.ok g.toArray) = .ok (p.reduce g).toArray := by
  simp only [reduceGradient, Except.mapError, bind, Except.bind, p.reduce?_toArray]
  rfl

namespace Exhaustive

variable {R : Type} [Scalar R] [Zero R] [Add R] [Sub R] [Mul R] [ExpLog R] {n : ℕ}
variable (e : Exhaustive R n) (p : Partition R n)

/-- The log-likelihood as a function of the free weights. -/
def reducedValue (r : Vector R p.freeCount) : R := e.value (p.expand r)

/-- The entries of the gradient that belong to free weights. -/
def reducedGradient (r : Vector R p.freeCount) : Vector R p.freeCount :=
  p.reduce (e.gradient (p.expand r))

/-- The value that is answered about the free weights. -/
theorem result_evaluate (r : Vector R p.freeCount) :
    ((p.evaluate r.toArray).run e.objective.respond ()).result =
      some (.ok (e.reducedValue p r)) := by
  rw [Partition.evaluate, p.expand?_toArray]
  simp only [Dialogue.run, Objective.respond, Objective.answer, objective_value]
  rfl

/-- The gradient that is answered about the free weights. -/
theorem result_evaluateGradient (r : Vector R p.freeCount) :
    ((p.evaluateGradient r.toArray).run e.objective.respond ()).result =
      some (.ok (e.reducedGradient p r).toArray) := by
  rw [Partition.evaluateGradient, p.expand?_toArray]
  simp only [Dialogue.run, Objective.respond, Objective.answer, objective_gradient,
    p.reduceGradient_toArray]
  rfl

end Exhaustive

/-! ### Partial derivatives -/

/-- At every point the entries of `g` are the partial derivatives of `f`. -/
def IsGradient {n : ℕ} (f : Vector ℝ n → ℝ) (g : Vector ℝ n → Vector ℝ n) : Prop :=
  ∀ (w : Vector ℝ n) (j : Fin n), 
    HasDerivAt (fun t => f (w.set j t j.isLt)) ((g w).get j) (w.get j)

/-- An entry that is set to what it holds. -/
theorem set_get_self {n : ℕ} (w : Vector ℝ n) (j : Fin n) : w.set j (w.get j) j.isLt = w := by
  rw [Vector.get_eq_getElem, Vector.set_getElem_self]

/-- Only the entry that is changed depends on the change. -/
theorem hasDerivAt_get_set {n : ℕ} (w : Vector ℝ n) (j i : Fin n) :
    HasDerivAt (fun t => (w.set j t j.isLt).get i) (if i = j then 1 else 0) (w.get j) := by
  by_cases h : i = j
  · subst h
    simpa [Vector.get_eq_getElem] using hasDerivAt_id' w[i]
  · have hne : (j : ℕ) ≠ i := fun hji => h (Fin.ext hji.symm)
    simpa [h, Vector.get_eq_getElem, Vector.getElem_set_ne _ _ hne] using hasDerivAt_const w[j] w[i]

namespace WorldTable

variable {n : ℕ} {t : WorldTable ℝ n}

/-- A score grows with a weight by the count of its formula. -/
theorem hasDerivAt_score (t : WorldTable ℝ n) (w : Vector ℝ n) (j : Fin n)
    (x : Fin t.worlds.size) :
    HasDerivAt (fun s => t.score (w.set j s j.isLt) x) (t.count x j) (w.get j) := by
  have h := HasDerivAt.fun_sum (u := Finset.univ) fun i _ =>
    (hasDerivAt_get_set w j i).const_mul (t.count x i)
  exact h.congr_deriv (by simp)

/-- The normalizer grows by the counts, each as often as its exponential says. -/
theorem hasDerivAt_normalizer (t : WorldTable ℝ n) (w : Vector ℝ n) (j : Fin n) :
    HasDerivAt (fun s => t.normalizer (w.set j s j.isLt))
      (∑ x, Real.exp (t.score w x) * t.count x j) (w.get j) := by
  have h := HasDerivAt.fun_sum (u := Finset.univ) fun x _ => (t.hasDerivAt_score w j x).exp
  exact h.congr_deriv (by simp only [set_get_self])

/-- The logarithm of the normalizer grows by the expected count. -/
theorem hasDerivAt_log_normalizer (h : 0 < t.worlds.size) (w : Vector ℝ n) (j : Fin n) :
    HasDerivAt (fun s => Real.log (t.normalizer (w.set j s j.isLt)))
      (∑ x, t.count x j * t.probability w x) (w.get j) := by
  have hne : t.normalizer (w.set j (w.get j) j.isLt) ≠ 0 := by
    rw [set_get_self]
    exact (normalizer_pos h w).ne'
  have hlog := (t.hasDerivAt_normalizer w j).log hne
  refine hlog.congr_deriv ?_
  simp only [set_get_self, Finset.sum_div, probability]
  exact Finset.sum_congr rfl fun x _ => by ring

end WorldTable

namespace Exhaustive

variable {n : ℕ} (e : Exhaustive ℝ n)

/-- The value with the logarithm of the normalizer taken out of the sum. -/
theorem value_eq_sub (w : Vector ℝ n) :
    e.value w = ∑ k : Fin e.training.length, e.table.score w (e.training.get k) -
      e.training.length * Real.log (e.table.normalizer w) := by
  rw [e.value_eq, ← Fin.sum_univ_fun_getElem]
  simp

/-- **The gradient is the derivative of the value.** -/
theorem hasDerivAt_value (w : Vector ℝ n) (j : Fin n) :
    HasDerivAt (fun t => e.value (w.set j t j.isLt)) ((e.gradient w).get j) (w.get j) := by
  have hscores := HasDerivAt.fun_sum (u := Finset.univ) fun (k : Fin e.training.length) _ =>
    e.table.hasDerivAt_score w j (e.training.get k)
  have hlog := (WorldTable.hasDerivAt_log_normalizer e.worlds_pos w j).const_mul
    (e.training.length : ℝ)
  simp only [value_eq_sub]
  refine (hscores.sub hlog).congr_deriv ?_
  rw [e.gradient_eq, ← Fin.sum_univ_fun_getElem, mul_comm (e.training.length : ℝ)]
  rfl

/-- **The gradient is the derivative, in full and of the free weights alone.** -/
theorem gradient_is_derivative (e : Exhaustive ℝ n) :
    (∀ w : Vector ℝ n, e.objective.value w.toArray = .ok (e.value w) ∧
      e.objective.gradient w.toArray = .ok (e.gradient w).toArray) ∧
    IsGradient e.value e.gradient ∧
    ∀ p : Partition ℝ n,
      (∀ r : Vector ℝ p.freeCount,
        ((p.evaluate r.toArray).run e.objective.respond ()).result =
          some (.ok (e.reducedValue p r)) ∧
        ((p.evaluateGradient r.toArray).run e.objective.respond ()).result =
          some (.ok (e.reducedGradient p r).toArray)) ∧
      IsGradient (e.reducedValue p) (e.reducedGradient p) := by
  refine ⟨fun w => ⟨e.objective_value w, e.objective_gradient w⟩, e.hasDerivAt_value, fun p =>
    ⟨fun r => ⟨e.result_evaluate p r, e.result_evaluateGradient p r⟩, fun r k => ?_⟩⟩
  have h := e.hasDerivAt_value (p.expand r) (p.freePosition k)
  simp only [reducedValue, reducedGradient, p.expand_set, p.get_reduce]
  rwa [p.get_expand_freePosition] at h

end Exhaustive

end MarkovLogic
