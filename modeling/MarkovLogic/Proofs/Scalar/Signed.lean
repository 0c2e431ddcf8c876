/-
**Sums and differences of doubles of either sign.**

A comparison of finite doubles is a comparison of the numbers that they stand for.  The exact sum of
two of them is rounded in its amount and keeps its sign, so the sum is finite unless the amount is
nearer to `2 ^ 1024` than to the greatest double, and a double that is not greater than another
leaves nothing positive when that is taken off.  What is not a number stays so, whatever is added or
taken off.

Main definitions:

* `Double.placeValue` — the number of a place in the order;
* `Double.greatest` — the greatest finite double;
* `Double.signOf` — the sign of a number.

Main results:

* `Double.lt_iff_value_lt`, `Double.le_iff_value_le` — **a comparison of finite doubles compares
  numbers**;
* `Double.unpack_add_of_finite` — **a sum of finite doubles is the exact sum, rounded**;
* `Double.isFinite_add`, `Double.add_nonpos` — when it is finite, and when it is not positive;
* `Double.sub_nonpos_of_le`, `Double.sub_self_of_finite` — the difference from what is not less;
* `Double.isNaN_add_left`, `Double.isNaN_add_right`, `Double.isNaN_sub` — what is not a number stays
  so.
-/
import MarkovLogic.Proofs.Scalar.Nearest

set_option autoImplicit false

namespace MarkovLogic.Double

open Float.Model Float.Model.UnpackedFloat

variable {x y : Float}

/-! ### Comparisons of numbers -/

/-- A finite double is read as zero or as a number with a sign. -/
theorem unpack_of_finite (hx : x.isFinite = true) :
    (∃ s, x.toModel.unpack = .zero s ∧ value x = 0) ∨
      ∃ s m e hm, x.toModel.unpack = .finite s m e hm ∧ value x = s.apply m * 2 ^ e ∧
        Canonical m e ∧ e ≤ 971 := by
  change x.toModel.unpack.isFinite = true at hx
  cases hu : x.toModel.unpack with
  | notANumber =>
      rw [hu] at hx
      cases hx
  | infinity s =>
      rw [hu] at hx
      cases hx
  | zero s => exact .inl ⟨s, rfl, by rw [value, hu, amount_zero]⟩
  | finite s m e hm =>
      exact .inr ⟨s, m, e, hm, rfl, by rw [value, hu, amount], canonical_of_unpack hu⟩

/-- The number of a place: its exponent and mantissa are those of the number or their opposites, as
the sign says. -/
def placeValue (p : ℤ ×ₗ ℤ ×ₗ ℤ) : ℚ :=
  (ofLex (ofLex p).2).2 * 2 ^ ((ofLex p).1 * (ofLex (ofLex p).2).1)

theorem amount_eq_placeValue (u : UnpackedFloat) : amount u = placeValue (place u) := by
  cases u with
  | notANumber => simp [amount, place, placeValue]
  | infinity s => cases s <;> simp [amount, place, placeValue]
  | zero s => simp [amount, place, placeValue]
  | finite s m e hm => cases s <;> simp [amount, place, placeValue, Sign.apply]

/-- With a greater exponent, or with the same and a greater mantissa, the number is greater. -/
theorem Canonical.lt_of_lt {m m' : ℕ} {e e' : ℤ} (hc : Canonical m e) (hc' : Canonical m' e')
    (h : e < e' ∨ e = e' ∧ m < m') : (m : ℚ) * 2 ^ e < m' * 2 ^ e' := by
  rcases h with he | ⟨rfl, hm⟩
  · have hge := hc.exponent_ge
    have hm' : (2 : ℚ) ^ (52 : ℤ) ≤ m' := by exact_mod_cast hc'.normal.resolve_right (by omega)
    calc (m : ℚ) * 2 ^ e < 2 ^ (53 : ℤ) * 2 ^ e := by
          gcongr
          exact_mod_cast hc.mantissa_lt
      _ = 2 ^ (53 + e) := (zpow_add₀ two_ne_zero 53 e).symm
      _ ≤ 2 ^ (52 + e') := zpow_le_zpow_right₀ one_le_two (by omega)
      _ = 2 ^ (52 : ℤ) * 2 ^ e' := zpow_add₀ two_ne_zero 52 e'
      _ ≤ m' * 2 ^ e' := by gcongr
  · gcongr

/-- A double that is less stands for a number that is less. -/
theorem value_lt_of_lt (hx : x.isFinite = true) (hy : y.isFinite = true) (h : x < y) :
    value x < value y := by
  have hpos : ∀ {m : ℕ} {e : ℤ}, 0 < m → (0 : ℚ) < m * 2 ^ e := fun hm => by positivity
  have hrank := (lt_iff_rank_lt.1 h).2.2
  rw [rank, rank] at hrank
  rcases unpack_of_finite hx with ⟨s, hu, hvx⟩ | ⟨s, m, e, hm, hu, hvx, hc, -⟩ <;>
    rcases unpack_of_finite hy with ⟨s', hu', hvy⟩ | ⟨s', m', e', hm', hu', hvy, hc', -⟩ <;>
    rw [hu, hu'] at hrank <;> rw [hvx, hvy]
  · exact absurd hrank (lt_irrefl _)
  · cases s' with
    | negative => simp [place, Prod.Lex.lt_iff] at hrank
    | positive => simpa [Sign.apply] using hpos hm'
  · cases s with
    | negative => simpa [Sign.apply] using hpos hm
    | positive => simp [place, Prod.Lex.lt_iff] at hrank
  · cases s <;> cases s' <;> simp [place, Prod.Lex.lt_iff] at hrank <;>
      simp only [Sign.apply, Int.cast_neg, Int.cast_natCast, neg_mul]
    · exact neg_lt_neg (hc'.lt_of_lt hc (by omega))
    · exact (neg_lt_zero.2 (hpos hm)).trans (hpos hm')
    · exact hc.lt_of_lt hc' (by omega)

/-- A double that is at most another stands for a number that is at most the other. -/
theorem value_le_of_le (hx : x.isFinite = true) (hy : y.isFinite = true) (h : x ≤ y) :
    value x ≤ value y := by
  obtain ⟨hxn, hyn, hrank⟩ := le_iff_rank_le.1 h
  rcases hrank.lt_or_eq with hlt | heq
  · exact (value_lt_of_lt hx hy (lt_iff_rank_lt.2 ⟨hxn, hyn, hlt⟩)).le
  · rw [value, value, amount_eq_placeValue, amount_eq_placeValue]
    exact (congrArg placeValue heq).le

/-- **A comparison of finite doubles compares the numbers that they stand for.** -/
theorem lt_iff_value_lt (hx : x.isFinite = true) (hy : y.isFinite = true) :
    x < y ↔ value x < value y := by
  refine ⟨value_lt_of_lt hx hy, fun h => ?_⟩
  by_contra hlt
  exact absurd (value_le_of_le hy hx (Double.le_of_not_lt hx hy hlt)) (not_le.2 h)

theorem le_iff_value_le (hx : x.isFinite = true) (hy : y.isFinite = true) :
    x ≤ y ↔ value x ≤ value y := by
  refine ⟨value_le_of_le hx hy, fun h => ?_⟩
  by_contra hle
  exact absurd (value_lt_of_lt hy hx (Double.lt_of_not_le hy hx hle)) (not_lt.2 h)

/-- The greatest finite double. -/
def greatest : ℚ := 2 ^ 1024 - 2 ^ 971

/-- No finite double is beyond the greatest, on either side. -/
theorem abs_value_le (hx : x.isFinite = true) : |value x| ≤ greatest := by
  have hgreatest : greatest = (2 ^ 53 - 1) * 2 ^ (971 : ℤ) := by
    have hlarge : (2 : ℚ) ^ 1024 = 2 ^ 53 * 2 ^ 971 := pow_add 2 53 971
    have hunit : (2 : ℚ) ^ (971 : ℤ) = 2 ^ 971 := zpow_natCast 2 971
    rw [greatest, hlarge, hunit]
    generalize (2 : ℚ) ^ 971 = unit
    ring
  rw [hgreatest]
  rcases unpack_of_finite hx with ⟨s, -, hvx⟩ | ⟨s, m, e, -, -, hvx, hc, he⟩
  · rw [hvx, abs_zero]
    positivity
  · have habs : |(s.apply m : ℚ)| = m := by cases s <;> simp [Sign.apply]
    have hm : (m : ℚ) ≤ 2 ^ 53 - 1 := by
      have hlt : (m + 1 : ℚ) ≤ 2 ^ 53 := by exact_mod_cast hc.mantissa_lt
      linarith
    rw [hvx, abs_mul, habs, abs_of_pos (by positivity)]
    gcongr
    exact one_le_two

/-- Half of its last unit above the greatest double the overflow begins. -/
theorem greatest_add_half : greatest + 2 ^ 970 = overflowBound := by
  have hdouble : (2 : ℚ) ^ 971 = 2 * 2 ^ 970 := pow_succ' 2 970
  rw [greatest, overflowBound, hdouble]
  generalize (2 : ℚ) ^ 970 = unit
  generalize (2 : ℚ) ^ 1024 = large
  ring

/-! ### Sums -/

/-- The sign of a number. -/
def signOf (v : ℚ) : Sign := if v < 0 then .negative else .positive

/-- A mantissa with a sign stands for a number with this sign. -/
theorem signOf_apply (s : Sign) {m : ℕ} (hm : 0 < m) (e : ℤ) :
    signOf (s.apply m * 2 ^ e) = s ∧ |(s.apply m * 2 ^ e : ℚ)| = m * 2 ^ e := by
  have hpos : (0 : ℚ) < m * 2 ^ e := by positivity
  cases s with
  | negative =>
      have hneg : (Sign.negative.apply m : ℚ) * 2 ^ e = -(m * 2 ^ e) := by simp [Sign.apply]
      rw [hneg, abs_neg, abs_of_pos hpos]
      exact ⟨if_pos (neg_lt_zero.2 hpos), rfl⟩
  | positive =>
      have hsame : (Sign.positive.apply m : ℚ) * 2 ^ e = m * 2 ^ e := by simp [Sign.apply]
      rw [hsame, abs_of_pos hpos]
      exact ⟨if_neg hpos.not_gt, rfl⟩

/-- A mantissa with a sign is normalized by rounding its amount. -/
theorem exists_normalize {M : ℤ} (hM : M ≠ 0) (e : ℤ) (z : Sign) :
    ∃ N t, Rounds |M * 2 ^ e| N t ∧
      UnpackedFloat.normalize .binary64 M e z = reading (signOf (M * 2 ^ e)) N t := by
  obtain ⟨s, m, hm, rfl⟩ : ∃ s : Sign, ∃ m : ℕ, 0 < m ∧ M = s.apply m := by
    rcases lt_or_gt_of_ne hM with hneg | hpos
    · exact ⟨.negative, M.natAbs, by omega, by simp only [Sign.apply]; omega⟩
    · exact ⟨.positive, M.natAbs, by omega, by simp only [Sign.apply]; omega⟩
  obtain ⟨N, t, hrounds, hround⟩ := exists_round (s := s) hm e
  obtain ⟨hsign, habs⟩ := signOf_apply s hm e
  rw [hsign, habs]
  refine ⟨N, t, hrounds, ?_⟩
  rw [← hround]
  cases s with
  | negative =>
      have hcompare : compare (-(m : ℤ)) 0 = .lt := compare_lt_iff_lt.2 (by omega)
      simp only [UnpackedFloat.normalize, Sign.apply, hcompare]
      rw [Int.neg_neg, Int.toNat_natCast]
  | positive => exact normalize_natCast hm e z

/-- What has the form of a double is read as it was rounded. -/
theorem Canonical.finite_eq_reading {m : ℕ} {e : ℤ} (hc : Canonical m e) (s : Sign) (hm : 0 < m) :
    UnpackedFloat.finite s m e hm = reading s m e := by
  rw [reading, dif_neg hm.ne', if_pos hc.mantissa_lt]

/-- **A sum of finite doubles is the exact sum, rounded**, or zero. -/
theorem unpack_add_of_finite (hx : x.isFinite = true) (hy : y.isFinite = true) :
    (value x + value y = 0 ∧ ∃ s, (x + y).toModel.unpack = .zero s) ∨
      value x + value y ≠ 0 ∧ ∃ N t, Rounds |value x + value y| N t ∧
        (x + y).toModel.unpack = UnpackedFloat.unpack .binary64
          (UnpackedFloat.pack .binary64 (reading (signOf (value x + value y)) N t)) := by
  rw [unpack_add]
  rcases unpack_of_finite hx with ⟨s₁, hu₁, hv₁⟩ | ⟨s₁, m₁, e₁, hm₁, hu₁, hv₁, hc₁, -⟩ <;>
    rcases unpack_of_finite hy with ⟨s₂, hu₂, hv₂⟩ | ⟨s₂, m₂, e₂, hm₂, hu₂, hv₂, hc₂, -⟩ <;>
    rw [hu₁, hu₂, hv₁, hv₂]
  · refine .inl ⟨add_zero 0, ?_⟩
    rw [UnpackedFloat.add]
    split
    · exact ⟨s₁, unpack_packedZero⟩
    · exact ⟨.positive, unpack_packedZero⟩
  · obtain ⟨hsign, habs⟩ := signOf_apply s₂ hm₂ e₂
    have hne : (s₂.apply m₂ * 2 ^ e₂ : ℚ) ≠ 0 := by
      rw [← abs_pos, habs]
      positivity
    refine .inr ⟨by rwa [zero_add], m₂, e₂, ?_, ?_⟩
    · rw [zero_add, habs]
      exact hc₂.rounds
    · rw [zero_add, hsign, ← hc₂.finite_eq_reading s₂ hm₂]
      rfl
  · obtain ⟨hsign, habs⟩ := signOf_apply s₁ hm₁ e₁
    have hne : (s₁.apply m₁ * 2 ^ e₁ : ℚ) ≠ 0 := by
      rw [← abs_pos, habs]
      positivity
    refine .inr ⟨by rwa [add_zero], m₁, e₁, ?_, ?_⟩
    · rw [add_zero, habs]
      exact hc₁.rounds
    · rw [add_zero, hsign, ← hc₁.finite_eq_reading s₁ hm₁]
      rfl
  · -- both mantissas are written with the smaller exponent and added
    let t := min e₁ e₂
    let M := s₁.apply (m₁ <<< (e₁ - t).toNat : ℕ) + s₂.apply (m₂ <<< (e₂ - t).toNat : ℕ)
    have hshift (s : Sign) (m : ℕ) {e : ℤ} (he : t ≤ e) :
        (s.apply (m <<< (e - t).toNat : ℕ) : ℚ) * 2 ^ t = s.apply m * 2 ^ e := by
      have h := shiftLeft_mul_zpow m he
      cases s with
      | negative =>
          simp only [Sign.apply, Int.cast_neg, Int.cast_natCast, neg_mul]
          exact congrArg Neg.neg h
      | positive => exact h
    have hvalue : (M : ℚ) * 2 ^ t = s₁.apply m₁ * 2 ^ e₁ + s₂.apply m₂ * 2 ^ e₂ := by
      rw [Int.cast_add, add_mul, hshift s₁ m₁ (min_le_left _ _), hshift s₂ m₂ (min_le_right _ _)]
    have hsum : UnpackedFloat.add .binary64 (.finite s₁ m₁ e₁ hm₁) (.finite s₂ m₂ e₂ hm₂) =
        UnpackedFloat.normalize .binary64 M t .positive := rfl
    rw [hsum, ← hvalue]
    by_cases hM : M = 0
    · refine .inl ⟨by rw [hM, Int.cast_zero, zero_mul], .positive, ?_⟩
      rw [hM]
      exact unpack_packedZero
    · obtain ⟨N, t', hrounds, hnormalize⟩ := exists_normalize hM t .positive
      have hne : (M : ℚ) * 2 ^ t ≠ 0 := mul_ne_zero (Int.cast_ne_zero.2 hM) (by positivity)
      exact .inr ⟨hne, N, t', hrounds, by rw [hnormalize]⟩

/-- A sum that is below the bound, on either side, is finite. -/
theorem isFinite_add (hx : x.isFinite = true) (hy : y.isFinite = true)
    (hlt : |value x + value y| < overflowBound) : (x + y).isFinite = true := by
  change (x + y).toModel.unpack.isFinite = true
  rcases unpack_add_of_finite hx hy with ⟨-, s, hzero⟩ | ⟨-, N, t, hrounds, hsum⟩
  · rw [hzero]
    rfl
  · rw [hsum, hrounds.unpack_pack hlt, reading]
    split
    · rfl
    · split <;> rfl

/-- A reading that is a zero or has the negative sign is at most zero. -/
theorem le_zero_of_unpack (h : (∃ s, x.toModel.unpack = .zero s) ∨
    (∃ N t, x.toModel.unpack = reading .negative N t) ∨
      x.toModel.unpack = .infinity .negative) : x ≤ 0 := by
  have hzero : (0 : Float).toModel.unpack = .zero .positive := rfl
  rw [le_iff_compare, hzero]
  rcases h with ⟨s, h⟩ | ⟨N, t, h⟩ | h <;> rw [h]
  · exact ⟨.eq, rfl, rfl⟩
  · rw [reading]
    split
    · exact ⟨.eq, rfl, rfl⟩
    · split <;> exact ⟨.lt, rfl, rfl⟩
  · exact ⟨.lt, rfl, rfl⟩

/-- A sum that is not positive is not rounded to a positive one. -/
theorem add_nonpos (hx : x.isFinite = true) (hy : y.isFinite = true)
    (h : value x + value y ≤ 0) : x + y ≤ 0 := by
  refine le_zero_of_unpack ?_
  rcases unpack_add_of_finite hx hy with ⟨-, hzero⟩ | ⟨hne, N, t, hrounds, hsum⟩
  · exact .inl hzero
  · have hsign : signOf (value x + value y) = .negative := if_pos (lt_of_le_of_ne h hne)
    rw [hsum, hsign]
    refine .inr ((unpack_pack_reading hrounds).imp (fun hread => ⟨N, t, hread⟩) fun hlarge => ?_)
    exact hlarge.2

/-! ### What is not finite -/

/-- What is neither finite nor undefined is infinite. -/
theorem eq_infinity_of_not_finite (hn : x.isNaN = false) (hx : x.isFinite = false) :
    x = 1.0 / 0.0 ∨ x = -(1.0 / 0.0) := by
  change x.toModel.unpack.isNaN = false at hn
  change x.toModel.unpack.isFinite = false at hx
  cases hu : x.toModel.unpack with
  | notANumber =>
      rw [hu] at hn
      cases hn
  | infinity s =>
      cases s with
      | negative => exact .inr (eq_of_unpack_eq (hu.trans unpack_negInf.symm))
      | positive => exact .inl (eq_of_unpack_eq hu)
  | zero s =>
      rw [hu] at hx
      cases hx
  | finite s m e hm =>
      rw [hu] at hx
      cases hx

/-- What is not a number is read as such. -/
theorem isNaN_iff_unpack : x.isNaN = true ↔ x.toModel.unpack = .notANumber := by
  change x.toModel.unpack.isNaN = true ↔ _
  cases x.toModel.unpack <;> simp [UnpackedFloat.isNaN]

/-- What is not a number stays so, whatever is added to it … -/
theorem isNaN_add_left (h : x.isNaN = true) (y : Float) : (x + y).isNaN = true := by
  rw [isNaN_iff_unpack] at h ⊢
  rw [unpack_add, h]
  exact unpack_packedNaN

/-- … and whatever it is added to. -/
theorem isNaN_add_right (x : Float) (h : y.isNaN = true) : (x + y).isNaN = true := by
  rw [isNaN_iff_unpack] at h ⊢
  have hsum : UnpackedFloat.add .binary64 x.toModel.unpack .notANumber = .notANumber := by
    cases x.toModel.unpack <;> rfl
  rw [unpack_add, h, hsum]
  exact unpack_packedNaN

/-- The infinity is not at most a finite double. -/
theorem not_infinity_le (hx : x.isFinite = true) : ¬(1.0 / 0.0 : Float) ≤ x := by
  have hinfinity : (1.0 / 0.0 : Float).toModel.unpack = .infinity .positive := rfl
  rw [le_iff_compare, hinfinity]
  rintro ⟨c, hc, hle⟩
  rcases unpack_of_finite hx with ⟨s, hu, -⟩ | ⟨s, m, e, hm, hu, -⟩ <;> rw [hu] at hc <;>
    cases hc <;> cases hle

/-! ### Differences -/

/-- With the other sign a double stands for the opposite number. -/
theorem value_neg (x : Float) : value (-x) = -value x := by
  rw [value, value, unpack_neg]
  cases x.toModel.unpack with
  | notANumber => exact neg_zero.symm
  | infinity s => exact neg_zero.symm
  | zero s => exact neg_zero.symm
  | finite s m e hm => cases s <;> simp [UnpackedFloat.neg, amount, Sign.apply]

/-- A difference is computed from readings, written and read. -/
theorem unpack_sub (x y : Float) : (x - y).toModel.unpack =
    UnpackedFloat.unpack .binary64 (UnpackedFloat.pack .binary64
      (UnpackedFloat.sub .binary64 x.toModel.unpack y.toModel.unpack)) := rfl

/-- To take off a reading is to add it with the other sign. -/
theorem sub_eq_add_opposite (u v : UnpackedFloat) :
    UnpackedFloat.sub .binary64 u v = UnpackedFloat.add .binary64 u v.neg := by
  cases u with
  | notANumber => rfl
  | infinity s => cases v <;> rfl
  | zero s => cases v <;> rfl
  | finite s m e hm => cases v with
    | notANumber => rfl
    | infinity s' => rfl
    | zero s' => rfl
    | finite s' m' e' hm' =>
        simp only [UnpackedFloat.sub, UnpackedFloat.add, UnpackedFloat.neg]
        cases s' with
        | negative => exact congrArg (UnpackedFloat.normalize _ · _ _) (Int.sub_neg _ _)
        | positive => rfl

theorem sub_eq_add_neg (x y : Float) : x - y = x + -y := by
  apply eq_of_unpack_eq
  rw [unpack_sub, unpack_add, unpack_neg, sub_eq_add_opposite]

/-- What is taken off itself leaves the zero that is not negative. -/
theorem sub_self_of_finite (hx : x.isFinite = true) : x - x = 0 := by
  have hzero : (0 : Float).toModel.unpack = .zero .positive := rfl
  apply eq_of_unpack_eq
  rw [unpack_sub, hzero]
  rcases unpack_of_finite hx with ⟨s, hu, -⟩ | ⟨s, m, e, hm, hu, -⟩ <;> rw [hu]
  · cases s <;> exact unpack_packedZero
  · simp only [UnpackedFloat.sub, Int.sub_self]
    exact unpack_packedZero

/-- Nothing finite can be taken off the negative infinity. -/
theorem negInf_sub (hx : x.isFinite = true) : -(1.0 / 0.0) - x = -(1.0 / 0.0) := by
  apply eq_of_unpack_eq
  rw [unpack_sub, unpack_negInf]
  rcases unpack_of_finite hx with ⟨s, hu, -⟩ | ⟨s, m, e, hm, hu, -⟩ <;> rw [hu] <;>
    exact unpack_negInf

/-- What is not greater than a finite double leaves nothing positive if that is taken off. -/
theorem sub_nonpos_of_le (hy : y.isFinite = true) (h : x ≤ y) : x - y ≤ 0 := by
  by_cases hx : x.isFinite = true
  · rw [sub_eq_add_neg]
    refine add_nonpos hx ((isFinite_neg y).trans hy) ?_
    rw [value_neg]
    linarith [(le_iff_value_le hx hy).1 h]
  · have hnumber := (le_iff_rank_le.1 h).1
    rcases eq_infinity_of_not_finite hnumber (Bool.eq_false_iff.2 hx) with rfl | rfl
    · exact absurd h (not_infinity_le hy)
    · rw [negInf_sub hy]
      exact le_zero_of_unpack (.inr (.inr unpack_negInf))

/-- What is not a number stays so, whatever is taken off. -/
theorem isNaN_sub (h : x.isNaN = true) (y : Float) : (x - y).isNaN = true := by
  rw [sub_eq_add_neg]
  exact isNaN_add_left h (-y)

end MarkovLogic.Double
