/-
**Real numbers.**

The likelihood is computed over any numbers that answer a few questions, and real numbers do: all of
them are finite, none is undefined, and a sum does not depend on the order of its terms.  So the
laws of the likelihood can be read over the reals, where the two ways to add up a list are one.

The largest of no numbers has no counterpart among the reals.  It is zero here, and no statement may
rest on it.

Main definitions:

* the reals as numbers to compute with, with their exponential and logarithm.

Main results:

* `Arrow.dot_eq_sum` — **the inner product as a sum over the entries**.
-/
import MarkovLogic.Likelihood.Exhaustive
import MarkovLogic.Proofs.Scalar.Lanes

set_option autoImplicit false

namespace MarkovLogic

/-! ### The reals as numbers to compute with -/

/-- All reals are finite. -/
noncomputable instance : Scalar ℝ where
  isFinite _ := true
  isNaN _ := false
  less x y := decide (x < y)
  bottom := 0
  ofCount n := n

/-- The exponential and the natural logarithm of a real number. -/
noncomputable instance : ExpLog ℝ where
  exp := Real.exp
  log := Real.log

@[simp] theorem Scalar.isFinite_real (x : ℝ) : Scalar.isFinite x = true := rfl

@[simp] theorem Scalar.isNaN_real (x : ℝ) : Scalar.isNaN x = false := rfl

@[simp] theorem Scalar.ofCount_real (n : ℕ) : (Scalar.ofCount n : ℝ) = n := rfl

@[simp] theorem ExpLog.exp_real (x : ℝ) : ExpLog.exp x = Real.exp x := rfl

@[simp] theorem ExpLog.log_real (x : ℝ) : ExpLog.log x = Real.log x := rfl

/-! ### Vectors -/

/-- The entries of a difference. -/
theorem Arrow.get_sub {R : Type} [Sub R] {n : ℕ} (a b : Vector R n) (i : Fin n) :
    (Arrow.sub a b).get i = a.get i - b.get i := by
  simp [Arrow.sub, Vector.get_eq_getElem]

/-- The inner product as a sum over the entries. -/
theorem Arrow.dot_eq_sum {R : Type} [NonUnitalNonAssocSemiring R] {n : ℕ} (a b : Vector R n) :
    Arrow.dot a b = ∑ i : Fin n, a.get i * b.get i := by
  have hterms : List.zipWith (· * ·) a.toList b.toList =
      List.ofFn fun i : Fin n => a.get i * b.get i := by
    apply List.ext_getElem
    · simp
    · intro i h₁ h₂
      simp [Vector.get_eq_getElem]
  rw [Arrow.dot, blockedSum_eq_sum, hterms, List.sum_ofFn]

end MarkovLogic
