/-
**The order of doubles.**

Doubles are compared by sign, then by exponent, then by mantissa; the two zeros are equal, and what
is not a number is comparable to nothing.  Apart from the latter every double has a place in a
linear order, and a comparison compares places.  So on finite doubles the comparisons behave as they
do on numbers, and a change of sign turns them around.

Main definitions:

* `Double.place`, `Double.rank` — the place of a reading, and of a double, in the order.

Main results:

* `Double.lt_iff_rank_lt`, `Double.le_iff_rank_le` — **a comparison of doubles compares places**;
* `Double.lt_trans`, `Double.le_trans`, `Double.le_total`, `Double.le_refl` — what follows;
* `Double.neg_lt_neg`, `Double.neg_le_neg_of_not_lt` — a change of sign turns comparisons around;
* `Double.not_le_negInf` — no finite double is as small as the negative infinity.
-/
import MarkovLogic.Proofs.Scalar.Words

set_option autoImplicit false

namespace MarkovLogic.Double

open Float.Model Float.Model.UnpackedFloat

/-! ### Places -/

/-- The place of a reading: the infinities at the ends, the negative numbers below the zeros and the
positive ones above, each by exponent and mantissa. -/
def place : UnpackedFloat → ℤ ×ₗ ℤ ×ₗ ℤ
  | .infinity .negative => toLex (-2, toLex (0, 0))
  | .finite .negative m e _ => toLex (-1, toLex (-e, -m))
  | .zero _ => toLex (0, toLex (0, 0))
  | .notANumber => toLex (0, toLex (0, 0))
  | .finite .positive m e _ => toLex (1, toLex (e, m))
  | .infinity .positive => toLex (2, toLex (0, 0))

theorem compare_natCast (m m' : ℕ) : compare (m : ℤ) (m' : ℤ) = compare m m' := by
  rcases lt_trichotomy m m' with h | h | h
  · rw [compare_lt_iff_lt.2 h, compare_lt_iff_lt.2 (Int.ofNat_lt.2 h)]
  · rw [compare_eq_iff_eq.2 h, compare_eq_iff_eq.2 (congrArg _ h)]
  · rw [compare_gt_iff_gt.2 h, compare_gt_iff_gt.2 (Int.ofNat_lt.2 h)]

theorem compare_neg_neg (a b : ℤ) : compare (-a) (-b) = (compare a b).swap := by
  rcases lt_trichotomy a b with h | h | h
  · rw [compare_lt_iff_lt.2 h, compare_gt_iff_gt.2 (Int.neg_lt_neg h), Ordering.swap_lt]
  · rw [compare_eq_iff_eq.2 h, compare_eq_iff_eq.2 (congrArg _ h), Ordering.swap_eq]
  · rw [compare_gt_iff_gt.2 h, compare_lt_iff_lt.2 (Int.neg_lt_neg h), Ordering.swap_gt]

/-- **A comparison of numbers compares their places.** -/
theorem compare_eq_some_compare_place {u v : UnpackedFloat} (hu : u.isNaN = false)
    (hv : v.isNaN = false) : u.compare v = some (compare (place u) (place v)) := by
  cases u with
  | notANumber => cases hu
  | infinity s => cases v with
    | notANumber => cases hv
    | infinity s' => cases s <;> cases s' <;> rfl
    | zero s' => cases s <;> rfl
    | finite s' m' e' h' => cases s <;> cases s' <;> rfl
  | zero s => cases v with
    | notANumber => cases hv
    | infinity s' => cases s' <;> rfl
    | zero s' => rfl
    | finite s' m' e' h' => cases s' <;> rfl
  | finite s m e h => cases v with
    | notANumber => cases hv
    | infinity s' => cases s <;> cases s' <;> rfl
    | zero s' => cases s <;> rfl
    | finite s' m' e' h' =>
      cases s <;> cases s'
      · change some ((compare e e').then (compare m m')).swap =
          some ((compare (-e) (-e')).then (compare (-m : ℤ) (-m' : ℤ)))
        rw [compare_neg_neg, compare_neg_neg, compare_natCast, Ordering.swap_then]
      · rfl
      · rfl
      · change some ((compare e e').then (compare m m')) =
          some ((compare e e').then (compare (m : ℤ) (m' : ℤ)))
        rw [compare_natCast]

/-- The place on the other side of the zeros. -/
def opposite (p : ℤ ×ₗ ℤ ×ₗ ℤ) : ℤ ×ₗ ℤ ×ₗ ℤ :=
  toLex (-(ofLex p).1, toLex (-(ofLex (ofLex p).2).1, -(ofLex (ofLex p).2).2))

/-- With the other sign a number has the opposite place. -/
theorem place_neg (u : UnpackedFloat) : place u.neg = opposite (place u) := by
  cases u with
  | notANumber => rfl
  | infinity s => cases s <;> rfl
  | zero s => cases s <;> rfl
  | finite s m e h =>
    cases s
    · change toLex (1, toLex (e, (m : ℤ))) = toLex (1, toLex (- -e, - -(m : ℤ)))
      rw [Int.neg_neg, Int.neg_neg]
    · rfl

theorem opposite_lt_opposite {p q : ℤ ×ₗ ℤ ×ₗ ℤ} (h : p < q) : opposite q < opposite p := by
  simp only [Prod.Lex.lt_iff, opposite, ofLex_toLex] at h ⊢
  omega

/-! ### Comparisons -/

variable {x y z : Float}

/-- The place of a double. -/
def rank (x : Float) : ℤ ×ₗ ℤ ×ₗ ℤ := place x.toModel.unpack

theorem isNaN_of_isFinite (h : x.isFinite = true) : x.isNaN = false := by
  change x.toModel.unpack.isNaN = false
  change x.toModel.unpack.isFinite = true at h
  cases hx : x.toModel.unpack with
  | notANumber =>
    rw [hx] at h
    cases h
  | _ => rfl

/-- Only numbers can be compared. -/
theorem isNaN_of_compare {u v : UnpackedFloat} {c : Ordering} (h : u.compare v = some c) :
    u.isNaN = false ∧ v.isNaN = false := by
  cases u with
  | notANumber => cases h
  | _ => cases v with
    | notANumber => cases h
    | _ => exact ⟨rfl, rfl⟩

theorem lt_iff_compare : x < y ↔ x.toModel.unpack.compare y.toModel.unpack = some .lt := by
  change Float.lt x y = true ↔ _
  rw [Float.lt, decide_eq_true_iff]
  change UnpackedFloat.lt _ _ = true ↔ _
  rw [UnpackedFloat.lt, beq_iff_eq]

theorem le_iff_compare :
    x ≤ y ↔ ∃ c, x.toModel.unpack.compare y.toModel.unpack = some c ∧ c.isLE := by
  change Float.le x y = true ↔ _
  rw [Float.le, decide_eq_true_iff]
  change UnpackedFloat.le _ _ = true ↔ _
  rw [UnpackedFloat.le, Option.any_eq_true]

/-- **A double is less than another if both are numbers and its place is below.** -/
theorem lt_iff_rank_lt : x < y ↔ x.isNaN = false ∧ y.isNaN = false ∧ rank x < rank y := by
  rw [lt_iff_compare]
  constructor
  · intro h
    obtain ⟨hx, hy⟩ := isNaN_of_compare h
    rw [compare_eq_some_compare_place hx hy] at h
    exact ⟨hx, hy, compare_lt_iff_lt.1 (Option.some.inj h)⟩
  · rintro ⟨hx, hy, h⟩
    rw [compare_eq_some_compare_place hx hy]
    exact congrArg some (compare_lt_iff_lt.2 h)

/-- A double is at most another if both are numbers and its place is not above. -/
theorem le_iff_rank_le : x ≤ y ↔ x.isNaN = false ∧ y.isNaN = false ∧ rank x ≤ rank y := by
  rw [le_iff_compare]
  constructor
  · rintro ⟨c, h, hc⟩
    obtain ⟨hx, hy⟩ := isNaN_of_compare h
    rw [compare_eq_some_compare_place hx hy] at h
    obtain rfl := Option.some.inj h
    exact ⟨hx, hy, compare_le_iff_le.1 (Ordering.ne_gt_iff_isLE.2 hc)⟩
  · rintro ⟨hx, hy, h⟩
    refine ⟨_, compare_eq_some_compare_place hx hy, ?_⟩
    exact Ordering.ne_gt_iff_isLE.1 (compare_le_iff_le.2 h)

protected theorem lt_trans (hxy : x < y) (hyz : y < z) : x < z := by
  rw [lt_iff_rank_lt] at *
  exact ⟨hxy.1, hyz.2.1, hxy.2.2.trans hyz.2.2⟩

protected theorem le_trans (hxy : x ≤ y) (hyz : y ≤ z) : x ≤ z := by
  rw [le_iff_rank_le] at *
  exact ⟨hxy.1, hyz.2.1, hxy.2.2.trans hyz.2.2⟩

protected theorem le_of_lt (h : x < y) : x ≤ y := by
  obtain ⟨hx, hy, hlt⟩ := lt_iff_rank_lt.1 h
  exact le_iff_rank_le.2 ⟨hx, hy, hlt.le⟩

protected theorem le_refl (hx : x.isFinite = true) : x ≤ x := by
  exact le_iff_rank_le.2 ⟨isNaN_of_isFinite hx, isNaN_of_isFinite hx, le_rfl⟩

/-- Of two doubles that are numbers one is not less than the other if and only if the other is at
most the one. -/
protected theorem not_lt_iff (hx : x.isNaN = false) (hy : y.isNaN = false) : ¬x < y ↔ y ≤ x := by
  rw [lt_iff_rank_lt, le_iff_rank_le]
  constructor
  · intro h
    exact ⟨hy, hx, le_of_not_gt fun hlt => h ⟨hx, hy, hlt⟩⟩
  · rintro ⟨-, -, hle⟩ ⟨-, -, hlt⟩
    exact absurd hlt hle.not_gt

/-- Finite doubles are linearly ordered. -/
protected theorem le_of_not_lt (hx : x.isFinite = true) (hy : y.isFinite = true) (h : ¬x < y) :
    y ≤ x := by
  have hxn := isNaN_of_isFinite hx
  have hyn := isNaN_of_isFinite hy
  refine le_iff_rank_le.2 ⟨hyn, hxn, le_of_not_gt fun hlt => h ?_⟩
  exact lt_iff_rank_lt.2 ⟨hxn, hyn, hlt⟩

protected theorem lt_of_not_le (hx : x.isFinite = true) (hy : y.isFinite = true) (h : ¬y ≤ x) :
    x < y := by
  by_contra hlt
  exact h (Double.le_of_not_lt hx hy hlt)

protected theorem le_total (hx : x.isFinite = true) (hy : y.isFinite = true) : x ≤ y ∨ y ≤ x := by
  by_cases h : x < y
  · exact .inl (Double.le_of_lt h)
  · exact .inr (Double.le_of_not_lt hx hy h)

protected theorem not_lt_of_lt (h : x < y) : ¬y < x := by
  intro h'
  exact lt_irrefl _ ((lt_iff_rank_lt.1 h).2.2.trans (lt_iff_rank_lt.1 h').2.2)

theorem unpack_negInf : (-(1.0 / 0.0) : Float).toModel.unpack = .infinity .negative := rfl

/-- No finite double is as small as the negative infinity. -/
protected theorem not_le_negInf (hx : x.isFinite = true) : ¬x ≤ -(1.0 / 0.0) := by
  intro h
  have hrank : rank x ≤ rank (-(1.0 / 0.0)) := (le_iff_rank_le.1 h).2.2
  rw [rank, rank, unpack_negInf] at hrank
  change x.toModel.unpack.isFinite = true at hx
  cases hu : x.toModel.unpack with
  | notANumber =>
    rw [hu] at hx
    cases hx
  | infinity s =>
    rw [hu] at hx
    cases hx
  | zero s =>
    rw [hu] at hrank
    simp [place, Prod.Lex.le_iff] at hrank
  | finite s m e h =>
    rw [hu] at hrank
    cases s <;> simp [place, Prod.Lex.le_iff] at hrank

/-- **A change of sign turns a comparison around.** -/
protected theorem neg_lt_neg (h : x < y) : -y < -x := by
  obtain ⟨hx, hy, hlt⟩ := lt_iff_rank_lt.1 h
  have hrank : ∀ w : Float, rank (-w) = opposite (rank w) := fun w => by
    rw [rank, unpack_neg, place_neg, rank]
  refine lt_iff_rank_lt.2 ⟨(isNaN_neg y).trans hy, (isNaN_neg x).trans hx, ?_⟩
  rw [hrank, hrank]
  exact opposite_lt_opposite hlt

/-- What is not less is at most as much with the other sign. -/
protected theorem neg_le_neg_of_not_lt (hx : x.isFinite = true) (hy : y.isFinite = true)
    (h : ¬x < y) : -x ≤ -y := by
  refine Double.le_of_not_lt ((isFinite_neg y).trans hy) ((isFinite_neg x).trans hx) fun hlt => h ?_
  simpa using Double.neg_lt_neg hlt

end MarkovLogic.Double
