/-
**Gradients of quadratic objectives.**

There are two ways to the gradient of the cost: an objective's own gradient is taken with the other
sign, and where there is none the cost, which has the other sign already, is differenced.  A central
difference of a quadratic polynomial is its derivative, whatever the step, because the terms of even
order cancel and there is none of third order.  So for quadratic objectives the two ways lead to the
same vector, as long as the arithmetic is exact; fixed weights do not matter, because a step in a
free weight is a step in one weight of the expanded vector.

Main definitions:

* the rationals as numbers to compute with;
* `polynomialGradient` — the vector of the partial derivatives of a polynomial;
* `Objective.IsPolynomial` — an objective whose value and gradient are those of a polynomial;
* `Objective.valueOnly` — an objective without its gradient.

Main results:

* `eval_update_sub_eval_update` — **a central difference of a quadratic is its derivative**;
* `result_gradientAt_of_values` — the gradient by differences, if no value is missing;
* `Objective.IsPolynomial.both_ways_to_gradient` — **the two ways lead to the same vector**.
-/
import MarkovLogic.Proofs.Likelihood.Derivative
import MarkovLogic.Proofs.Solver.Fallback

set_option autoImplicit false

namespace MarkovLogic

open MvPolynomial

/-! ### The rationals as numbers to compute with -/

/-- All rationals are finite. -/
instance : Scalar ℚ where
  isFinite _ := true
  isNaN _ := false
  less x y := decide (x < y)
  bottom := 0
  ofCount n := n

instance : DecimalText ℚ where
  decimal := toString

/-! ### Central differences of quadratics -/

section Central

variable {K : Type} [Field K] {n : ℕ}

/-- A monomial as the power of one variable times the rest. -/
theorem eval_monomial_eq (i : Fin n) (s : Fin n →₀ ℕ) (a : K) (x : Fin n → K) :
    eval x (monomial s a) = a * (x i ^ s i * ∏ j ∈ Finset.univ.erase i, x j ^ s j) := by
  rw [eval_monomial, Finsupp.prod_fintype _ _ fun _ => pow_zero _,
    Finset.mul_prod_erase _ (fun j => x j ^ s j) (Finset.mem_univ i)]

/-- A step in one variable leaves the powers of the others. -/
theorem eval_update_monomial (i : Fin n) (s : Fin n →₀ ℕ) (a : K) (x : Fin n → K) (t : K) :
    eval (Function.update x i t) (monomial s a) =
      a * (t ^ s i * ∏ j ∈ Finset.univ.erase i, x j ^ s j) := by
  rw [eval_monomial_eq i, Function.update_self]
  congr 2
  exact Finset.prod_congr rfl fun j hj => by
    rw [Function.update_of_ne (Finset.ne_of_mem_erase hj)]

/-- The partial derivative of a monomial takes one power of its variable away. -/
theorem eval_pderiv_monomial (i : Fin n) (s : Fin n →₀ ℕ) (a : K) (x : Fin n → K) :
    eval x (pderiv i (monomial s a)) =
      a * (s i * x i ^ (s i - 1) * ∏ j ∈ Finset.univ.erase i, x j ^ s j) := by
  have hrest : ∏ j ∈ Finset.univ.erase i, x j ^ (s - Finsupp.single i 1 : Fin n →₀ ℕ) j =
      ∏ j ∈ Finset.univ.erase i, x j ^ s j :=
    Finset.prod_congr rfl fun j hj => by
      rw [Finsupp.tsub_apply, Finsupp.single_eq_of_ne (Finset.ne_of_mem_erase hj), tsub_zero]
  rw [pderiv_monomial, eval_monomial_eq i, hrest, Finsupp.tsub_apply, Finsupp.single_eq_same]
  ring

/-- The difference of a power of at most two. -/
theorem pow_add_sub_pow_sub {k : ℕ} (hk : k ≤ 2) (x h : K) :
    (x + h) ^ k - (x + -h) ^ k = (h + h) * (k * x ^ (k - 1)) := by
  obtain rfl | rfl | rfl : k = 0 ∨ k = 1 ∨ k = 2 := by omega
  · simp
  · simp
  · push_cast
    ring

/-- **A central difference of a quadratic is its derivative**, times the distance of the two
points. -/
theorem eval_update_sub_eval_update {f : MvPolynomial (Fin n) K} (hf : f.totalDegree ≤ 2)
    (x : Fin n → K) (i : Fin n) (h : K) :
    eval (Function.update x i (x i + h)) f - eval (Function.update x i (x i + -h)) f =
      (h + h) * eval x (pderiv i f) := by
  rw [f.as_sum]
  simp only [map_sum]
  rw [← Finset.sum_sub_distrib, Finset.mul_sum]
  refine Finset.sum_congr rfl fun s hs => ?_
  -- only the degree in the one variable counts
  have hdegree : s i ≤ 2 :=
    (monomial_le_degreeOf i hs).trans ((degreeOf_le_totalDegree f i).trans hf)
  rw [eval_update_monomial, eval_update_monomial, eval_pderiv_monomial, ← mul_sub, ← sub_mul,
    pow_add_sub_pow_sub hdegree]
  ring

end Central

/-! ### The gradient by differences -/

section Differences

variable {R : Type} {n : ℕ} {respond : Unit → (q : Consult R n) → q.Answer × Unit}
  {value : Vector R n → R}

/-- The answers of a pass in which no value is missing. -/
theorem answersAt_eq_map
    (hvalue : ∀ x, (respond () (.value .difference x)).1 = .ok (value x))
    (points : List (Vector R n)) :
    (answersAt respond points ()).1 = (points.map value).map .ok := by
  induction points with
  | nil => rfl
  | cons x xs ih =>
      rw [answersAt]
      exact congrArg₂ List.cons (hvalue x) ih

/-- Nothing fails in such a pass. -/
theorem firstFailure?_passEvents_ok (points : List (Vector R n)) (values : List R) :
    firstFailure? (passEvents points (values.map .ok)) = none := by
  refine List.findSome?_eq_none_iff.2 fun event hevent => ?_
  obtain ⟨i, hi, rfl⟩ := List.getElem_of_mem hevent
  simp [passEvents, Event.failure?, Consult.failure?]

variable [Add R] [Sub R] [Div R] [Neg R] [Scalar R]

/-- **The gradient by differences, if no value is missing** and every number is finite: the vector
of the central quotients.  Nothing is remembered as failed. -/
theorem result_gradientAt_of_values (hfinite : ∀ v : R, Scalar.isFinite v = true)
    (hmissing : ∀ x, (respond () (.gradient x)).1 = .error .gradientNotImplemented)
    (hvalue : ∀ x, (respond () (.value .difference x)).1 = .ok (value x)) (h : R) (x : Vector R n)
    (memory : FirstFailure R) :
    ((gradientAt h x memory).run respond ()).result = some (.ok (Vector.ofFn fun i =>
      (-value (shifted x i h) - -value (shifted x i (-h))) / (h + h)), memory) := by
  have hanswers := answersAt_eq_map hvalue (centralPoints h x)
  have hpass : PassSucceeds (CentralDifference h x (answersAt respond (centralPoints h x) ()).1)
      (answersAt respond (centralPoints h x) ()).1 (Vector.ofFn fun i =>
        (-value (shifted x i h) - -value (shifted x i (-h))) / (h + h)) := by
    rw [hanswers]
    refine ⟨?_, fun i => ⟨value (shifted x i h), value (shifted x i (-h)), ?_, ?_, ?_⟩,
      fun _ => hfinite _⟩
    · refine List.findSome?_eq_none_iff.2 fun answer hanswer => ?_
      obtain ⟨v, -, rfl⟩ := List.mem_map.1 hanswer
      rw [fault?, if_pos (hfinite v)]
    · rw [getElem?_zip_values, List.getElem?_map, (getElem?_centralPoints h x i).1]
      exact ⟨rfl, rfl⟩
    · rw [getElem?_zip_values, List.getElem?_map, (getElem?_centralPoints h x i).2]
      exact ⟨rfl, rfl⟩
    · simp [Vector.get_eq_getElem]
  obtain ⟨memory', hrun⟩ := run_gradientAt_of_succeeds respond h x memory () (hmissing x) hpass
  have hresult := congrArg Exchange.result hrun
  have hmemory := tracks_gradientAt h x memory _ _ _ (Dialogue.unfolds_of_result_run hresult)
  rw [hrun, hanswers, firstFailure?_cons, firstFailure?_passEvents_ok] at hmemory
  rw [hresult, hmemory]
  cases memory <;> rfl

end Differences

/-! ### Quadratic objectives -/

section Quadratic

variable {K : Type} [Field K] {n : ℕ}

/-- The partial derivatives of a polynomial at a point. -/
noncomputable def polynomialGradient (f : MvPolynomial (Fin n) K) (w : Vector K n) : Vector K n :=
  Vector.ofFn fun i => eval w.get (pderiv i f)

/-- Value and gradient of the objective are those of a polynomial in the weights. -/
structure Objective.IsPolynomial (o : Objective K) (f : MvPolynomial (Fin n) K) : Prop where
  value (w : Vector K n) : o.value w.toArray = .ok (eval w.get f)
  gradient (w : Vector K n) : o.gradient w.toArray = .ok (polynomialGradient f w).toArray

/-- The same objective without a gradient of its own. -/
def Objective.valueOnly {R : Type} (o : Objective R) : Objective R where
  value := o.value
  mode := o.mode

/-- To set an entry is to set the value of a variable. -/
theorem get_set_eq_update {R : Type} (w : Vector R n) (i : Fin n) (t : R) :
    (w.set i t i.isLt).get = Function.update w.get i t := by
  funext j
  by_cases hji : j = i
  · subst hji
    simp [Vector.get_eq_getElem]
  · have hne : (i : ℕ) ≠ j := fun h => hji (Fin.ext h.symm)
    simp [Vector.get_eq_getElem, Function.update_of_ne hji, Vector.getElem_set_ne _ _ hne]

/-- A step in a free weight is a step in one weight of the expanded vector. -/
theorem get_expand_shifted (p : Partition K n) (r : Vector K p.freeCount) (k : Fin p.freeCount)
    (step : K) :
    (p.expand (shifted r k step)).get = Function.update (p.expand r).get (p.freePosition k)
      ((p.expand r).get (p.freePosition k) + step) := by
  rw [shifted, p.expand_set, get_set_eq_update, p.get_expand_freePosition]

variable [LinearOrder K] [IsStrictOrderedRing K]

/-- The central quotients of a quadratic objective are its reduced gradient with the other sign. -/
theorem ofFn_quotients_eq {f : MvPolynomial (Fin n) K} (hf : f.totalDegree ≤ 2)
    (p : Partition K n) (r : Vector K p.freeCount) {h : K} (hpos : 0 < h) :
    (Vector.ofFn fun k => (-eval (p.expand (shifted r k h)).get f -
        -eval (p.expand (shifted r k (-h))).get f) / (h + h)) =
      Arrow.neg (p.reduce (polynomialGradient f (p.expand r))) := by
  have hne : h + h ≠ 0 := (add_pos hpos hpos).ne'
  apply Vector.ext
  intro k hk
  have hentry := p.get_reduce (polynomialGradient f (p.expand r)) ⟨k, hk⟩
  have hdifference := eval_update_sub_eval_update hf (p.expand r).get (p.freePosition ⟨k, hk⟩) h
  rw [← get_expand_shifted, ← get_expand_shifted] at hdifference
  simp only [polynomialGradient, Vector.get_eq_getElem, Vector.getElem_ofFn] at hentry
  simp only [Arrow.neg, Vector.getElem_map, Vector.getElem_ofFn, polynomialGradient, hentry]
  rw [neg_sub_neg, ← neg_sub, hdifference, neg_div, mul_div_cancel_left₀ _ hne]

variable [Scalar K] [DecimalText K]

/-- **The two ways lead to the same vector.**  With exact arithmetic and an objective that is
polynomial of degree at most two, the gradient of the cost over the free weights is the reduced
gradient with the other sign, whether the objective gives its gradient or has to be differenced,
and nothing is remembered as failed. -/
theorem Objective.IsPolynomial.both_ways_to_gradient {f : MvPolynomial (Fin n) K}
    {o : Objective K} (ho : o.IsPolynomial f) (hf : f.totalDegree ≤ 2)
    (hfinite : ∀ x : K, Scalar.isFinite x = true) (p : Partition K n) (r : Vector K p.freeCount)
    {h : K} (hpos : 0 < h) (memory : FirstFailure K) :
    let descent := Arrow.neg (p.reduce (polynomialGradient f (p.expand r)))
    let evaluation := p.lift (gradientAt h r memory)
    (evaluation.run o.respond ()).result = some (.ok descent, memory) ∧
      (evaluation.run o.valueOnly.respond ()).result = some (.ok descent, memory) := by
  intro descent evaluation
  dsimp only [evaluation]
  rw [Partition.lift, (Dialogue.run_relay ..).1, (Dialogue.run_relay ..).1]
  constructor
  · have hanswer : (Dialogue.hear p.liftQuestion p.liftAnswer o.respond () (.gradient r)).1 =
        .ok (p.reduce (polynomialGradient f (p.expand r))).toArray := by
      change (p.reduceGradient (o.gradient (p.expand r).toArray)).mapError _ = _
      rw [ho.gradient, p.reduceGradient_toArray]
      rfl
    have hchecked := checkGradient_toArray_eq_ok_iff.2
      ⟨rfl, fun i => hfinite ((p.reduce (polynomialGradient f (p.expand r))).get i)⟩
    rw [gradientAt, Dialogue.run_ask, hanswer]
    dsimp only [Dialogue.run]
    rw [hchecked]
    rfl
  · have hvalue : ∀ x, (Dialogue.hear p.liftQuestion p.liftAnswer o.valueOnly.respond ()
        (.value .difference x)).1 = .ok ((fun x => eval (p.expand x).get f) x) :=
      fun x => ho.value (p.expand x)
    rw [result_gradientAt_of_values hfinite (fun _ => rfl) hvalue, ofFn_quotients_eq hf p r hpos]

end Quadratic

/-- An objective of two weights with a term in both. -/
def saddle : Objective ℚ where
  value w := .ok (w.getD 0 0 * w.getD 1 0 - w.getD 0 0 ^ 2)
  gradient w := .ok #[w.getD 1 0 - 2 * w.getD 0 0, w.getD 0 0]

theorem polynomialGradient_saddle (w : Vector ℚ 2) :
    polynomialGradient (X 0 * X 1 - X 0 ^ 2 : MvPolynomial (Fin 2) ℚ) w =
      #v[w.get 1 - 2 * w.get 0, w.get 0] := by
  apply Vector.ext
  intro i hi
  obtain rfl | rfl : i = 0 ∨ i = 1 := by omega
  · simp [polynomialGradient, pderiv_X]
  · simp [polynomialGradient, pderiv_X]

theorem isPolynomial_saddle :
    saddle.IsPolynomial (X 0 * X 1 - X 0 ^ 2 : MvPolynomial (Fin 2) ℚ) := by
  refine ⟨fun w => ?_, fun w => ?_⟩
  · simp [saddle, Vector.get_eq_getElem]
  · rw [polynomialGradient_saddle]
    simp [saddle, Vector.get_eq_getElem]

/-- The second weight is fixed at three. -/
theorem both_ways_to_gradient_saddle :
    let p : Partition ℚ 2 := ⟨#v[none, some 3]⟩
    let evaluation := p.lift (gradientAt (1 / 2) (#v[1] : Vector ℚ p.freeCount) none)
    (evaluation.run saddle.respond ()).result = some (.ok #v[-1], none) ∧
      (evaluation.run saddle.valueOnly.respond ()).result = some (.ok #v[-1], none) := by
  intro p evaluation
  have hdegree : (X 0 * X 1 - X 0 ^ 2 : MvPolynomial (Fin 2) ℚ).totalDegree ≤ 2 := by
    refine (totalDegree_sub _ _).trans (max_le ?_ ?_)
    · exact (totalDegree_mul _ _).trans (by simp)
    · exact (totalDegree_pow _ _).trans (by simp)
  have hdescent : Arrow.neg (p.reduce (polynomialGradient (X 0 * X 1 - X 0 ^ 2)
      (p.expand #v[1]))) = #v[-1] := by
    have hexpand : p.expand #v[1] = #v[1, 3] := rfl
    have hreduce : p.reduce #v[3 - 2 * 1, 1] = #v[3 - 2 * 1] := rfl
    have hneg : Arrow.neg (#v[3 - 2 * 1] : Vector ℚ 1) = #v[-1] := by norm_num [Arrow.neg]
    rw [polynomialGradient_saddle, hexpand]
    exact (congrArg Arrow.neg hreduce).trans hneg
  have h := isPolynomial_saddle.both_ways_to_gradient hdegree (fun _ => rfl) p #v[1]
    (h := 1 / 2) (by norm_num) none
  rwa [hdescent] at h

end MarkovLogic
