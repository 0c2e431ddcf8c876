/-
**Sums, quotients and counts of doubles.**

The sum and the quotient of doubles that are not negative, and a natural number times a power of ten
as a double, are the exact results rounded, unless these are so large that infinity takes their
place.  Rounding keeps to powers of two on either side, it reaches zero from up to half of the least
positive double, and a sum that has grown to `2 ^ 54` no longer grows by what is at most one.

Main definitions:

* `Double.RoundsTo` — a number is rounded to another;
* `Double.Yields` — a reading is what an exact result is rounded to.

Main results:

* `Double.RoundsTo.eq_zero_iff` — **what is rounded to zero**;
* `Double.RoundsTo.one_le`, `Double.RoundsTo.le_two_pow` — bounds that rounding keeps;
* `Double.value_add`, `Double.yields_div`, `Double.yields_ofNat` — **the operations**;
* `Double.exists_rounds_ofScientific` — **scientific notation**, on either of its two ways.
-/
import MarkovLogic.Proofs.Scalar.Rounding

set_option autoImplicit false

namespace MarkovLogic.Double

open Float.Model Float.Model.UnpackedFloat

/-! ### What rounding keeps -/

/-- The number `v` is rounded to `r`. -/
def RoundsTo (v r : ℚ) : Prop := ∃ N t, Rounds v N t ∧ r = N * 2 ^ t

namespace RoundsTo

variable {v r : ℚ}

theorem nonneg (h : RoundsTo v r) : 0 ≤ r := by
  obtain ⟨N, t, -, rfl⟩ := h
  positivity

/-- **Up to half of the least positive double is rounded to zero**, and nothing else is. -/
theorem eq_zero_iff (h : RoundsTo v r) : r = 0 ↔ v ≤ 2 ^ (-1075 : ℤ) := by
  obtain ⟨N, t, h, rfl⟩ := h
  have hpos : (0 : ℚ) < 2 ^ t := by positivity
  obtain ⟨hlower, hupper⟩ := abs_le.1 h.near
  rw [mul_eq_zero_iff_right hpos.ne', Nat.cast_eq_zero]
  rcases h.two_pow_le with hN | rfl
  · -- a mantissa with 53 bits is not zero, and the number has at least the least exponent
    have hbits : (2 ^ 52 : ℚ) ≤ N := by exact_mod_cast hN
    have hv : 1 * (2 : ℚ) ^ t ≤ v := (le_div_iff₀ hpos).1 (by linarith)
    have hlt : (2 : ℚ) ^ (-1075 : ℤ) < 2 ^ t :=
      zpow_lt_zpow_right₀ one_lt_two (by linarith [h.exponent_ge])
    have hne : N ≠ 0 := by omega
    simp only [hne, false_iff, not_le]
    linarith
  · have hhalf : (2 : ℚ) ^ (-1075 : ℤ) = 1 / 2 * 2 ^ (-1074 : ℤ) := by
      rw [show (-1075 : ℤ) = -1 + -1074 by norm_num, zpow_add₀ two_ne_zero]
      norm_num
    rw [hhalf, ← div_le_iff₀ hpos]
    constructor
    · rintro rfl
      simpa using hupper
    · intro hle
      have heven := h.even
      generalize v / 2 ^ (-1074 : ℤ) = q at hle hlower heven
      have hone : N ≤ 1 := by
        have : (N : ℚ) ≤ 1 := by linarith
        exact_mod_cast this
      by_contra hne
      obtain rfl : N = 1 := by omega
      -- half way between zero and one the even mantissa is chosen
      have htie : q = 1 / 2 := by
        push_cast at hlower
        linarith
      exact absurd (heven (by rw [htie]; norm_num)) (by decide)

/-- What is at least one is rounded to at least one. -/
theorem one_le (h : RoundsTo v r) (hv : 1 ≤ v) : 1 ≤ r := by
  obtain ⟨N, t, h, rfl⟩ := h
  have hpos : (0 : ℚ) < 2 ^ t := by positivity
  obtain ⟨hlower, hupper⟩ := abs_le.1 h.near
  rcases le_or_gt 0 t with ht | ht
  · have hN : (1 : ℚ) ≤ N := by
      have := h.two_pow_le.resolve_right (by omega)
      exact_mod_cast (show 1 ≤ N by omega)
    calc (1 : ℚ) = 1 * 1 := (one_mul 1).symm
      _ ≤ N * 2 ^ t := mul_le_mul hN (one_le_zpow₀ one_le_two ht) zero_le_one (by positivity)
  · -- in units of `2 ^ t` one is a whole number
    obtain ⟨k, hk⟩ := Int.eq_ofNat_of_zero_le (show 0 ≤ -t by omega)
    obtain rfl : t = -k := by omega
    have hunits : (2 : ℚ) ^ k ≤ v / 2 ^ (-k : ℤ) := by
      rw [le_div_iff₀ hpos, ← zpow_natCast, ← zpow_add₀ two_ne_zero, add_neg_cancel, zpow_zero]
      exact hv
    have hN : 2 ^ k ≤ N := by
      have hlt : (2 ^ k : ℚ) < N + 1 := by linarith
      exact Nat.lt_succ_iff.1 (by exact_mod_cast hlt)
    calc (1 : ℚ) = 2 ^ k * 2 ^ (-k : ℤ) := by
          rw [← zpow_natCast, ← zpow_add₀ two_ne_zero, add_neg_cancel, zpow_zero]
      _ ≤ N * 2 ^ (-k : ℤ) := by
          gcongr
          exact_mod_cast hN

/-- A sum that has grown to `2 ^ 54` or a greater power of two no longer grows by what is at most
one. -/
theorem le_two_pow {k : ℕ} (h : RoundsTo v r) (hk : 54 ≤ k) (hv : v ≤ 2 ^ k + 1) : r ≤ 2 ^ k := by
  obtain ⟨N, t, h, rfl⟩ := h
  obtain ⟨hlower, hupper⟩ := abs_le.1 h.near
  rcases le_or_gt t (k - 53) with ht | ht
  · have hN : (N : ℚ) ≤ 2 ^ 53 := by exact_mod_cast h.le_two_pow
    calc (N : ℚ) * 2 ^ t ≤ 2 ^ (53 : ℤ) * 2 ^ (k - 53 : ℤ) := by
          gcongr
          · exact hN
          · exact one_le_two
      _ = 2 ^ k := by rw [← zpow_add₀ two_ne_zero, add_sub_cancel, zpow_natCast]
  · -- the exponent is one more, and less than half of its unit is added
    have hnormal := h.normal.resolve_right (by omega)
    have hlt : (2 : ℚ) ^ (t + 52) < 2 ^ ((k : ℤ) + 1) := by
      have hone : (1 : ℚ) < 2 ^ k := one_lt_pow₀ one_lt_two (by omega)
      rw [zpow_add_one₀ two_ne_zero, zpow_natCast]
      linarith
    have ht2 : t + 52 < k + 1 := (zpow_lt_zpow_iff_right₀ one_lt_two).1 hlt
    obtain rfl : t = k - 52 := by omega
    have hunit : (2 : ℚ) ^ k = 2 ^ 52 * 2 ^ ((k : ℤ) - 52) := by
      rw [← zpow_natCast, ← zpow_natCast, ← zpow_add₀ two_ne_zero]
      congr 1
      norm_num
    have hN : N ≤ 2 ^ 52 := by
      have hfour : (4 : ℚ) ≤ 2 ^ ((k : ℤ) - 52) :=
        calc (4 : ℚ) = 2 ^ (2 : ℤ) := by norm_num
          _ ≤ 2 ^ ((k : ℤ) - 52) := zpow_le_zpow_right₀ one_le_two (by omega)
      have hquarter : v / 2 ^ ((k : ℤ) - 52) ≤ 2 ^ 52 + 1 / 4 := by
        rw [div_le_iff₀ (by positivity)]
        linarith
      have hlt : (N : ℚ) < 2 ^ 52 + 1 := by linarith
      exact Nat.lt_succ_iff.1 (by exact_mod_cast hlt)
    rw [hunit]
    gcongr
    exact_mod_cast hN

/-- What fits into 53 bits is not changed by rounding. -/
theorem eq_of_lt_two_pow (h : RoundsTo v r) {m : ℕ} {e : ℤ} (hm : m < 2 ^ 53) (he : -1074 ≤ e)
    (hv : v = m * 2 ^ e) : r = v := by
  obtain ⟨N, t, h, rfl⟩ := h
  have hle : t ≤ e := by
    by_contra hlt
    have hnormal := h.normal.resolve_right (by omega)
    have hupper : v < 2 ^ (e + 53) := by
      rw [hv, add_comm, zpow_add₀ two_ne_zero]
      gcongr
      exact_mod_cast hm
    have := (zpow_lt_zpow_iff_right₀ one_lt_two).1 (hnormal.trans_lt hupper)
    omega
  obtain ⟨k, hk⟩ := Int.eq_ofNat_of_zero_le (Int.sub_nonneg_of_le hle)
  obtain rfl : e = t + k := by omega
  have hunits : v / 2 ^ t = (m * 2 ^ k : ℕ) := by
    rw [div_eq_iff (by positivity), hv, add_comm, zpow_add₀ two_ne_zero]
    push_cast
    rw [zpow_natCast]
    ring
  have hnear := h.near
  rw [hunits] at hnear
  have hN : m * 2 ^ k = N := by
    obtain ⟨hlower, hupper⟩ := abs_le.1 hnear
    have h₁ : ((m * 2 ^ k : ℕ) : ℚ) < N + 1 := by linarith
    have h₂ : (N : ℚ) < (m * 2 ^ k : ℕ) + 1 := by linarith
    have h₁ : m * 2 ^ k < N + 1 := by exact_mod_cast h₁
    have h₂ : N < m * 2 ^ k + 1 := by exact_mod_cast h₂
    omega
  rw [← hN, ← hunits, div_mul_cancel₀ _ (by positivity)]

end RoundsTo

/-- What a mantissa and an exponent of a double stand for is rounded to them. -/
theorem Canonical.rounds {m : ℕ} {e : ℤ} (hc : Canonical m e) : Rounds (m * 2 ^ e) m e := by
  have hunits : (m * 2 ^ e / 2 ^ e : ℚ) = m := mul_div_cancel_right₀ _ (by positivity)
  refine ⟨hc.exponent_ge, ?_, ?_, ?_, ?_⟩
  · rw [add_comm, zpow_add₀ two_ne_zero]
    gcongr
    exact_mod_cast hc.mantissa_lt
  · refine hc.normal.imp_left fun hm => ?_
    rw [add_comm, zpow_add₀ two_ne_zero]
    gcongr
    exact_mod_cast hm
  · rw [hunits, sub_self, abs_zero]
    norm_num
  · rw [hunits, sub_self, abs_zero]
    norm_num

theorem Canonical.roundsTo {m : ℕ} {e : ℤ} (hc : Canonical m e) :
    RoundsTo (m * 2 ^ e) (m * 2 ^ e) :=
  ⟨m, e, hc.rounds, rfl⟩

/-- Zero is rounded to zero. -/
theorem roundsTo_zero : RoundsTo 0 0 := by
  have hzero : Canonical 0 (-1074) := ⟨by norm_num, le_rfl, .inr rfl⟩
  simpa using hzero.roundsTo

/-- What a finite double stands for is not changed by rounding. -/
theorem roundsTo_value {x : Float} (hx : x.isFinite = true) (h : 0 ≤ value x) :
    RoundsTo (value x) (value x) := by
  rcases unpack_of_nonneg hx h with ⟨s, -, hzero⟩ | ⟨m, e, -, -, hvalue, hc, -⟩
  · rw [hzero]
    exact roundsTo_zero
  · rw [hvalue]
    exact hc.roundsTo

/-! ### Operations -/

/-- A sum is computed from readings, written and read. -/
theorem unpack_add (x y : Float) : (x + y).toModel.unpack =
    UnpackedFloat.unpack .binary64 (UnpackedFloat.pack .binary64
      (UnpackedFloat.add .binary64 x.toModel.unpack y.toModel.unpack)) := rfl

/-- So is a quotient. -/
theorem unpack_div (x y : Float) : (x / y).toModel.unpack =
    UnpackedFloat.unpack .binary64 (UnpackedFloat.pack .binary64
      (UnpackedFloat.div .binary64 x.toModel.unpack y.toModel.unpack)) := rfl

/-- The reading is that of the rounded number, or the number is large and the reading infinite. -/
def Yields (u : UnpackedFloat) (v : ℚ) : Prop :=
  (∃ N t, Rounds v N t ∧ u = reading .positive N t) ∨ 2 ^ 1023 ≤ v ∧ u = .infinity .positive

/-- What is rounded and written is read as it was rounded. -/
theorem yields_pack_reading {v : ℚ} {N : ℕ} {t : ℤ} (h : Rounds v N t) :
    Yields (UnpackedFloat.unpack .binary64
      (UnpackedFloat.pack .binary64 (reading .positive N t))) v :=
  (unpack_pack_reading h).imp_left fun hread => ⟨N, t, h, hread⟩

namespace Yields

variable {u : UnpackedFloat} {v : ℚ}

/-- A finite reading stands for the rounded number. -/
theorem finite_or_infinity (h : Yields u v) :
    u.isFinite = true ∧ RoundsTo v (amount u) ∨ 2 ^ 1023 ≤ v ∧ u = .infinity .positive := by
  refine h.imp_left ?_
  rintro ⟨N, t, hrounds, rfl⟩
  refine ⟨?_, N, t, hrounds, amount_reading hrounds⟩
  rw [reading]
  split
  · rfl
  · split <;> rfl

/-- A number that is not large yields a finite reading. -/
theorem finite (h : Yields u v) (hv : v < 2 ^ 1023) :
    u.isFinite = true ∧ RoundsTo v (amount u) :=
  h.finite_or_infinity.resolve_right fun hlarge => absurd hlarge.1 (not_le.2 hv)

/-- What is rounded to zero is read as the zero that is not negative. -/
theorem eq_zero (h : Yields u v) (hv : v ≤ 2 ^ (-1075 : ℤ)) : u = .zero .positive := by
  have hsmall : v < 2 ^ 1023 := by
    have hlt : (2 : ℚ) ^ (-1075 : ℤ) < 2 ^ (1023 : ℤ) :=
      zpow_lt_zpow_right₀ one_lt_two (by norm_num)
    rw [← zpow_natCast]
    exact hv.trans_lt hlt
  obtain ⟨N, t, hrounds, rfl⟩ := h.resolve_right fun hlarge => absurd hlarge.1 (not_le.2 hsmall)
  have hzero : (N : ℚ) * 2 ^ t = 0 := (RoundsTo.eq_zero_iff ⟨N, t, hrounds, rfl⟩).2 hv
  have hN : N = 0 := by
    have hpos : (2 : ℚ) ^ t ≠ 0 := by positivity
    exact_mod_cast (mul_eq_zero_iff_right hpos).1 hzero
  rw [reading, dif_pos hN]

end Yields

/-- A positive mantissa is normalized by rounding it. -/
theorem normalize_natCast {m : ℕ} (hm : 0 < m) (e : ℤ) (s : Sign) :
    UnpackedFloat.normalize .binary64 m e s = UnpackedFloat.round .binary64 .positive m e := by
  have hcompare : compare (m : ℤ) 0 = .gt := compare_gt_iff_gt.2 (by exact_mod_cast hm)
  rw [UnpackedFloat.normalize, hcompare]
  rfl

/-- A mantissa is written with a smaller exponent. -/
theorem shiftLeft_mul_zpow (m : ℕ) {e t : ℤ} (h : t ≤ e) :
    ((m <<< (e - t).toNat : ℕ) : ℚ) * 2 ^ t = m * 2 ^ e := by
  obtain ⟨k, hk⟩ := Int.eq_ofNat_of_zero_le (Int.sub_nonneg_of_le h)
  obtain rfl : e = t + k := by omega
  rw [hk, Int.toNat_natCast, Nat.shiftLeft_eq, zpow_add₀ two_ne_zero, zpow_natCast]
  push_cast
  ring

/-- **A sum of doubles is the exact sum, rounded**, unless it is large. -/
theorem value_add {x y : Float} (hx : x.isFinite = true) (hy : y.isFinite = true)
    (hx₀ : 0 ≤ value x) (hy₀ : 0 ≤ value y) (hsmall : value x + value y < 2 ^ 1023) :
    (x + y).isFinite = true ∧ RoundsTo (value x + value y) (value (x + y)) := by
  change (x + y).toModel.unpack.isFinite = true ∧ RoundsTo _ (amount (x + y).toModel.unpack)
  rcases unpack_of_nonneg hx hx₀ with ⟨s₁, hx', hzx⟩ | ⟨m₁, e₁, hm₁, hx', hvx, -⟩ <;>
    rcases unpack_of_nonneg hy hy₀ with ⟨s₂, hy', hzy⟩ | ⟨m₂, e₂, hm₂, hy', hvy, -⟩
  · have hsum : ∃ s, (x + y).toModel.unpack = .zero s := by
      rw [unpack_add, hx', hy', UnpackedFloat.add]
      split
      · exact ⟨s₁, unpack_packedZero⟩
      · exact ⟨.positive, unpack_packedZero⟩
    obtain ⟨s, hs⟩ := hsum
    rw [hs, hzx, hzy, add_zero]
    exact ⟨rfl, roundsTo_zero⟩
  · have hsum : UnpackedFloat.add .binary64 x.toModel.unpack y.toModel.unpack =
        y.toModel.unpack := by
      rw [hx', hy']
      rfl
    have hself : (x + y).toModel.unpack = y.toModel.unpack := by
      rw [unpack_add, hsum]
      exact unpack_pack_unpack _
    rw [hself, hzx, zero_add]
    exact ⟨hy, roundsTo_value hy hy₀⟩
  · have hsum : UnpackedFloat.add .binary64 x.toModel.unpack y.toModel.unpack =
        x.toModel.unpack := by
      rw [hx', hy']
      rfl
    have hself : (x + y).toModel.unpack = x.toModel.unpack := by
      rw [unpack_add, hsum]
      exact unpack_pack_unpack _
    rw [hself, hzy, add_zero]
    exact ⟨hx, roundsTo_value hx hx₀⟩
  · -- both mantissas are written with the smaller exponent and added
    let t := min e₁ e₂
    let m := m₁ <<< (e₁ - t).toNat + m₂ <<< (e₂ - t).toNat
    have hm : 0 < m := by
      refine Nat.add_pos_left ?_ _
      rw [Nat.shiftLeft_eq]
      exact Nat.mul_pos hm₁ (Nat.two_pow_pos _)
    have hvalue : (m : ℚ) * 2 ^ t = value x + value y := by
      rw [Nat.cast_add, add_mul, shiftLeft_mul_zpow m₁ (min_le_left e₁ e₂),
        shiftLeft_mul_zpow m₂ (min_le_right e₁ e₂), hvx, hvy]
    have hsum : UnpackedFloat.add .binary64 x.toModel.unpack y.toModel.unpack =
        UnpackedFloat.round .binary64 .positive m t := by
      rw [hx', hy', ← normalize_natCast hm t .positive]
      rfl
    obtain ⟨N, t', hrounds, hround⟩ := exists_round (s := .positive) hm t
    rw [hvalue] at hrounds
    rw [unpack_add, hsum, hround]
    exact (yields_pack_reading hrounds).finite hsmall

/-- A quotient and its remainder describe the fraction. -/
theorem describes_fraction (M : ℕ) {d : ℕ} (hd : 0 < d) :
    Describes (ExtendedMantissa.ofMantissaAndAccuracy (M / d) (accuracyOfFraction (M % d) d))
      (M / d : ℚ) := by
  have hd' : (0 : ℚ) < d := by exact_mod_cast hd
  have hlt : ((M % d : ℕ) : ℚ) < d := by exact_mod_cast Nat.mod_lt M hd
  have hsplit : (M / d : ℚ) = (M / d : ℕ) + ((M % d : ℕ) : ℚ) / d := by
    rw [eq_comm, ← sub_eq_zero]
    have : (M : ℚ) = d * (M / d : ℕ) + (M % d : ℕ) := by exact_mod_cast (Nat.div_add_mod M d).symm
    field_simp
    linarith
  generalize hr : M % d = r at hlt hsplit
  rw [accuracyOfFraction, hsplit]
  split
  · rename_i hzero
    simp [Describes, ExtendedMantissa.ofMantissaAndAccuracy, hzero]
  · rename_i hne
    have hpos : (0 : ℚ) < (r : ℚ) / d := div_pos (by exact_mod_cast Nat.pos_of_ne_zero hne) hd'
    have hone : (r : ℚ) / d < 1 := (div_lt_one hd').2 hlt
    rcases lt_trichotomy (2 * r) d with hhalf | hhalf | hhalf
    · have hcast : (2 * r : ℚ) < d := by exact_mod_cast hhalf
      have hless : (r : ℚ) / d < 1 / 2 := by
        rw [div_lt_div_iff₀ hd' two_pos]
        linarith
      rw [compare_lt_iff_lt.2 hhalf]
      exact ⟨lt_add_of_pos_right _ hpos, add_lt_add_right hless _⟩
    · have hcast : (2 * r : ℚ) = d := by exact_mod_cast hhalf
      have heq : (r : ℚ) / d = 1 / 2 := by
        rw [div_eq_div_iff hd'.ne' two_ne_zero]
        linarith
      rw [compare_eq_iff_eq.2 hhalf, heq]
      rfl
    · have hcast : (d : ℚ) < 2 * r := by exact_mod_cast hhalf
      have hmore : 1 / 2 < (r : ℚ) / d := by
        rw [div_lt_div_iff₀ two_pos hd']
        linarith
      rw [compare_gt_iff_gt.2 hhalf]
      exact ⟨add_lt_add_right hmore _, add_lt_add_right hone _⟩

/-- The exponent at which a quotient is computed: the quotient then has all the bits of the
result. -/
def quotientExponent (m₁ : ℕ) (e₁ : ℤ) (m₂ : ℕ) (e₂ : ℤ) : ℤ :=
  min (e₁ - e₂) (max (m₁.log2 + e₁ - (m₂.log2 + e₂) - 53) (-1074))

/-- The dividend, shifted for this exponent. -/
def shiftedDividend (m₁ : ℕ) (e₁ : ℤ) (m₂ : ℕ) (e₂ : ℤ) : ℕ :=
  m₁ <<< (e₁ - e₂ - quotientExponent m₁ e₁ m₂ e₂).toNat

section Quotients

variable {m₁ m₂ : ℕ} {e₁ e₂ : ℤ}

theorem divCore_eq : divCore .binary64 m₁ e₁ m₂ e₂ =
    (shiftedDividend m₁ e₁ m₂ e₂ / m₂, quotientExponent m₁ e₁ m₂ e₂,
      accuracyOfFraction (shiftedDividend m₁ e₁ m₂ e₂ % m₂) m₂) := by
  have hexponent : min (e₁ - e₂) (Format.binary64.targetExponent
      (totalExponent m₁ e₁ - totalExponent m₂ e₂)) = quotientExponent m₁ e₁ m₂ e₂ := by
    rw [targetExponent_binary64, totalExponent, totalExponent, quotientExponent]
    omega
  simp only [divCore, hexponent]
  rfl

/-- The shifted dividend has so many bits more than the divisor that the quotient has enough. -/
theorem quotientExponent_le (h₁ : 0 < m₁) (h₂ : 0 < m₂) :
    quotientExponent m₁ e₁ m₂ e₂ ≤
      max (((shiftedDividend m₁ e₁ m₂ e₂ / m₂).log2 : ℤ) + quotientExponent m₁ e₁ m₂ e₂ - 52)
        (-1074) := by
  rw [shiftedDividend]
  generalize ht : quotientExponent m₁ e₁ m₂ e₂ = t
  rw [quotientExponent] at ht
  by_cases hleast : t ≤ -1074
  · exact le_max_of_le_right hleast
  · have hlarge : 2 ^ 52 ≤ m₁ <<< (e₁ - e₂ - t).toNat / m₂ := by
      rw [Nat.le_div_iff_mul_le h₂]
      calc 2 ^ 52 * m₂ ≤ 2 ^ 52 * 2 ^ (m₂.log2 + 1) := Nat.mul_le_mul_left _ Nat.lt_log2_self.le
        _ = 2 ^ (52 + (m₂.log2 + 1)) := (pow_add 2 52 (m₂.log2 + 1)).symm
        _ ≤ 2 ^ (m₁.log2 + (e₁ - e₂ - t).toNat) := Nat.pow_le_pow_right two_pos (by omega)
        _ = 2 ^ m₁.log2 * 2 ^ (e₁ - e₂ - t).toNat := pow_add 2 _ _
        _ ≤ m₁ * 2 ^ (e₁ - e₂ - t).toNat := Nat.mul_le_mul_right _ (Nat.log2_self_le h₁.ne')
        _ = m₁ <<< (e₁ - e₂ - t).toNat := (Nat.shiftLeft_eq m₁ _).symm
    have hlog : 52 ≤ (m₁ <<< (e₁ - e₂ - t).toNat / m₂).log2 := (Nat.le_log2 (by omega)).2 hlarge
    omega

/-- **A quotient of positive readings is the exact quotient, rounded.** -/
theorem exists_rounds_div (h₁ : 0 < m₁) (h₂ : 0 < m₂) (e₁ e₂ : ℤ) :
    ∃ N t, Rounds (m₁ * 2 ^ e₁ / (m₂ * 2 ^ e₂)) N t ∧
      UnpackedFloat.div .binary64 (.finite .positive m₁ e₁ h₁) (.finite .positive m₂ e₂ h₂) =
        reading .positive N t := by
  have hquotient :
      UnpackedFloat.div .binary64 (.finite .positive m₁ e₁ h₁) (.finite .positive m₂ e₂ h₂) =
        roundWithAccuracy .binary64 (.positive / .positive) (divCore .binary64 m₁ e₁ m₂ e₂).1
          (divCore .binary64 m₁ e₁ m₂ e₂).2.1 (divCore .binary64 m₁ e₁ m₂ e₂).2.2 := rfl
  have hvalue : (shiftedDividend m₁ e₁ m₂ e₂ / m₂ : ℚ) * 2 ^ quotientExponent m₁ e₁ m₂ e₂ =
      m₁ * 2 ^ e₁ / (m₂ * 2 ^ e₂) := by
    have hle : quotientExponent m₁ e₁ m₂ e₂ ≤ e₁ - e₂ := min_le_left _ _
    rw [div_mul_eq_mul_div, shiftedDividend, shiftLeft_mul_zpow m₁ hle, zpow_sub₀ two_ne_zero]
    field_simp
  obtain ⟨N, t, hrounds, hround⟩ := exists_roundWithAccuracy (s := .positive)
    (describes_fraction (shiftedDividend m₁ e₁ m₂ e₂) h₂) (quotientExponent_le h₁ h₂)
  rw [hvalue] at hrounds
  rw [hquotient, divCore_eq]
  exact ⟨N, t, hrounds, hround⟩

end Quotients

/-- **A quotient of doubles is the exact quotient, rounded.** -/
theorem yields_div {x y : Float} (hx : x.isFinite = true) (hy : y.isFinite = true)
    (hx₀ : 0 < value x) (hy₀ : 0 < value y) :
    Yields (x / y).toModel.unpack (value x / value y) := by
  rcases unpack_of_nonneg hx hx₀.le with ⟨s₁, -, hzx⟩ | ⟨m₁, e₁, hm₁, hx', hvx, -⟩
  · exact absurd hzx hx₀.ne'
  rcases unpack_of_nonneg hy hy₀.le with ⟨s₂, -, hzy⟩ | ⟨m₂, e₂, hm₂, hy', hvy, -⟩
  · exact absurd hzy hy₀.ne'
  obtain ⟨N, t, hrounds, hquotient⟩ := exists_rounds_div hm₁ hm₂ e₁ e₂
  rw [← hvx, ← hvy] at hrounds
  rw [unpack_div, hx', hy', hquotient]
  exact yields_pack_reading hrounds

/-- A positive double divided by infinity is zero. -/
theorem unpack_div_infinity {x y : Float} (hx : x.isFinite = true) (hx₀ : 0 < value x)
    (hy : y.toModel.unpack = .infinity .positive) :
    (x / y).toModel.unpack = .zero .positive := by
  rcases unpack_of_nonneg hx hx₀.le with ⟨s, -, hzero⟩ | ⟨m, e, hm, hx', -⟩
  · exact absurd hzero hx₀.ne'
  rw [unpack_div, hx', hy]
  exact unpack_packedZero

/-- **A product of positive readings is the exact product, rounded**, if its mantissa has enough
bits. -/
theorem exists_rounds_mul {m₁ m₂ : ℕ} (h₁ : 0 < m₁) (h₂ : 0 < m₂)
    (hbits : 52 ≤ (m₁ * m₂).log2) (e₁ e₂ : ℤ) :
    ∃ N t, Rounds (m₁ * 2 ^ e₁ * (m₂ * 2 ^ e₂)) N t ∧
      UnpackedFloat.mul .binary64 (.finite .positive m₁ e₁ h₁) (.finite .positive m₂ e₂ h₂) =
        reading .positive N t := by
  have hvalue : ((m₁ * m₂ : ℕ) : ℚ) * 2 ^ (e₁ + e₂) = m₁ * 2 ^ e₁ * (m₂ * 2 ^ e₂) := by
    rw [zpow_add₀ two_ne_zero]
    push_cast
    ring
  rw [← hvalue]
  exact exists_roundWithAccuracy (s := .positive) (describes_exact (m₁ * m₂)) (by omega)

/-- A word as a double stands for itself, if it has at most 53 bits. -/
theorem value_toFloat {n : ℕ} (hn : 0 < n) (hlt : n < 2 ^ 53) :
    n.toUInt64.toFloat.isFinite = true ∧ value n.toUInt64.toFloat = n := by
  have hword : n.toUInt64.toNat = n := UInt64.toNat_ofNat_of_lt' (by
    have : UInt64.size = 2 ^ 64 := rfl
    omega)
  have hread : n.toUInt64.toFloat.toModel.unpack =
      UnpackedFloat.unpack .binary64 (UnpackedFloat.pack .binary64
        (UnpackedFloat.normalize .binary64 (n.toUInt64.toNat : ℤ) 0 .positive)) := rfl
  obtain ⟨N, t, hrounds, hround⟩ := exists_round (s := .positive) hn 0
  rw [hword, normalize_natCast hn, hround] at hread
  have hyields := yields_pack_reading hrounds
  rw [← hread, zpow_zero, mul_one] at hyields
  have hsmall : (n : ℚ) < 2 ^ 1023 := by
    have hbits : (n : ℚ) < 2 ^ 53 := by exact_mod_cast hlt
    exact hbits.trans (pow_lt_pow_right₀ one_lt_two (by norm_num))
  obtain ⟨hfinite, hrounds⟩ := hyields.finite hsmall
  have hexact : (n : ℚ) = n * 2 ^ (0 : ℤ) := by rw [zpow_zero, mul_one]
  exact ⟨hfinite, hrounds.eq_of_lt_two_pow hlt (by norm_num) hexact⟩

/-- The powers of ten of the table are doubles: the power of five is shifted to 53 bits. -/
theorem unpack_powerOfTen {k : ℕ} (hk : k < Float.exactlyRepresentablePowersOfTen.size) :
    ∃ m e hm, (Float.exactlyRepresentablePowersOfTen[k]).toModel.unpack =
      .finite .positive m e hm ∧ 2 ^ 52 ≤ m ∧ (m * 2 ^ e : ℚ) = 10 ^ k := by
  have hlt : k < 23 := hk
  refine ⟨5 ^ k * 2 ^ (52 - (5 ^ k).log2), k - (52 - (5 ^ k).log2 : ℕ), by positivity, ?_, ?_, ?_⟩
  · -- without the bound in it, each entry is a closed term
    rw [Array.getElem_eq_getD 0]
    clear hk
    interval_cases k <;> rfl
  · interval_cases k <;> decide
  · rw [zpow_sub₀ two_ne_zero, zpow_natCast, zpow_natCast]
    push_cast
    field_simp
    rw [← mul_pow]
    norm_num

/-- Up to 53 bits and the 22nd power of ten, a number in scientific notation is the product or the
quotient of two doubles. -/
theorem exists_rounds_ofScientific_of_lt {n : ℕ} (hn : 0 < n) {power : ℤ} (hlt : n < 2 ^ 53)
    (hpower : power.natAbs ≤ 22) : ∃ N t, Rounds (n * 10 ^ power) N t ∧
      (Float.ofScientific n (power < 0) power.natAbs).toModel.unpack =
        UnpackedFloat.unpack .binary64
          (UnpackedFloat.pack .binary64 (reading .positive N t)) := by
  obtain ⟨hfinite, hvalue⟩ := value_toFloat hn hlt
  have hpos : 0 < value n.toUInt64.toFloat := by
    rw [hvalue]
    exact_mod_cast hn
  rcases unpack_of_nonneg hfinite hpos.le with ⟨s, -, hzero⟩ | ⟨m₁, e₁, h₁, hunpack, hme, -⟩
  · exact absurd hzero hpos.ne'
  have hk : power.natAbs < Float.exactlyRepresentablePowersOfTen.size := Nat.lt_succ_of_le hpower
  obtain ⟨m₂, e₂, h₂, htable, hm₂, hten⟩ := unpack_powerOfTen hk
  rw [hvalue] at hme
  rw [Float.ofScientific, dif_pos ⟨hlt, hpower⟩]
  by_cases hneg : power < 0
  · obtain ⟨N, t, hrounds, hquotient⟩ := exists_rounds_div h₁ h₂ e₁ e₂
    have hsame : (n * 10 ^ power : ℚ) = m₁ * 2 ^ e₁ / (m₂ * 2 ^ e₂) := by
      rw [← hme, hten, div_eq_mul_inv, ← zpow_natCast, ← zpow_neg]
      congr 2
      omega
    refine ⟨N, t, hsame ▸ hrounds, ?_⟩
    simp only [hneg, decide_true, if_true]
    rw [unpack_div, hunpack, htable, hquotient]
  · have hbits : 52 ≤ (m₁ * m₂).log2 :=
      (Nat.le_log2 (Nat.mul_pos h₁ h₂).ne').2 (hm₂.trans (Nat.le_mul_of_pos_left m₂ h₁))
    obtain ⟨N, t, hrounds, hproduct⟩ := exists_rounds_mul h₁ h₂ hbits e₁ e₂
    have hsame : (n * 10 ^ power : ℚ) = m₁ * 2 ^ e₁ * (m₂ * 2 ^ e₂) := by
      rw [← hme, hten, ← zpow_natCast]
      congr 2
      omega
    refine ⟨N, t, hsame ▸ hrounds, ?_⟩
    simp only [hneg, decide_false, Bool.false_eq_true, if_false]
    rw [← hproduct, ← hunpack, ← htable]
    rfl

/-- A signed power of ten is passed on as a flag and a size. -/
theorem signed_natAbs (power : ℤ) :
    (if decide (power < 0) = true then Int.negOfNat power.natAbs else Int.ofNat power.natAbs) =
      power := by
  by_cases hneg : power < 0
  · rw [if_pos (by simpa using hneg), Int.negOfNat_eq]
    exact (congrArg Neg.neg (Int.ofNat_natAbs_of_nonpos hneg.le)).trans (Int.neg_neg power)
  · rw [if_neg (by simpa using hneg)]
    exact Int.natAbs_of_nonneg (Int.not_lt.1 hneg)

/-- The reading of a number in scientific notation is a quotient by a power of ten, or a product
whose mantissa has bits to spare. -/
theorem exists_rounds_scientificReading {n : ℕ} (hn : 0 < n) {power : ℤ} (hlarge : power ≤ 2 ^ 11)
    (hsmall : -(2 ^ 11 + (n.log2 : ℤ)) ≤ power) : ∃ N t, Rounds (n * 10 ^ power) N t ∧
      UnpackedFloat.ofScientific .binary64 n power = reading .positive N t := by
  have hbits : Format.binary64.exponentBits = 11 := rfl
  rw [UnpackedFloat.ofScientific, dif_neg hn.ne', hbits, if_neg (by omega), if_neg (by omega)]
  by_cases hneg : power < 0
  · obtain ⟨k, rfl⟩ := Int.exists_eq_neg_ofNat hneg.le
    have hten : 0 < 10 ^ (- -(k : ℤ)).toNat := Nat.pow_pos (by norm_num)
    obtain ⟨N, t, hrounds, hquotient⟩ := exists_rounds_div hn hten 0 0
    have hsame : (n * 10 ^ (-(k : ℤ)) : ℚ) =
        n * 2 ^ (0 : ℤ) / ((10 ^ (- -(k : ℤ)).toNat : ℕ) * 2 ^ (0 : ℤ)) := by
      rw [Int.neg_neg, Int.toNat_natCast, zpow_neg, zpow_natCast]
      push_cast
      simp [div_eq_mul_inv]
    rw [if_neg (by omega)]
    exact ⟨N, t, hsame ▸ hrounds, hquotient⟩
  · obtain ⟨k, rfl⟩ := Int.eq_ofNat_of_zero_le (by omega : 0 ≤ power)
    have hm : 0 < n <<< 53 := by
      rw [Nat.shiftLeft_eq]
      exact Nat.mul_pos hn (Nat.two_pow_pos 53)
    have hten : 0 < 10 ^ (k : ℤ).toNat := Nat.pow_pos (by norm_num)
    have hlog : 52 ≤ (n <<< 53 * 10 ^ (k : ℤ).toNat).log2 := by
      refine (Nat.le_log2 (Nat.mul_pos hm hten).ne').2 ?_
      calc 2 ^ 52 ≤ 1 * 2 ^ 53 := by norm_num
        _ ≤ n * 2 ^ 53 := Nat.mul_le_mul_right _ hn
        _ = n <<< 53 := (Nat.shiftLeft_eq n 53).symm
        _ ≤ n <<< 53 * 10 ^ (k : ℤ).toNat := Nat.le_mul_of_pos_right _ hten
    obtain ⟨N, t, hrounds, hproduct⟩ := exists_rounds_mul hm hten hlog (-53) 0
    have hsame : (n * 10 ^ (k : ℤ) : ℚ) =
        (n <<< 53 : ℕ) * 2 ^ (-53 : ℤ) * ((10 ^ (k : ℤ).toNat : ℕ) * 2 ^ (0 : ℤ)) := by
      rw [Int.toNat_natCast, zpow_natCast, Nat.shiftLeft_eq]
      push_cast
      norm_num
      ring
    rw [if_pos (by omega)]
    exact ⟨N, t, hsame ▸ hrounds, hproduct⟩

/-- **A number in scientific notation is the number, rounded**, on either of the two ways. -/
theorem exists_rounds_ofScientific {n : ℕ} (hn : 0 < n) {power : ℤ} (hlarge : power ≤ 2 ^ 11)
    (hsmall : -(2 ^ 11 + (n.log2 : ℤ)) ≤ power) : ∃ N t, Rounds (n * 10 ^ power) N t ∧
      (Float.ofScientific n (power < 0) power.natAbs).toModel.unpack =
        UnpackedFloat.unpack .binary64
          (UnpackedFloat.pack .binary64 (reading .positive N t)) := by
  by_cases hfast : n < 2 ^ 53 ∧ power.natAbs ≤ 22
  · exact exists_rounds_ofScientific_of_lt hn hfast.1 hfast.2
  · obtain ⟨N, t, hrounds, hreading⟩ := exists_rounds_scientificReading hn hlarge hsmall
    refine ⟨N, t, hrounds, ?_⟩
    rw [Float.ofScientific, dif_neg hfast, ← hreading]
    dsimp only
    rw [signed_natAbs]
    rfl

/-- **A count as a double is the count, rounded.** -/
theorem yields_ofNat {n : ℕ} (hn : 0 < n) : Yields (Float.ofNat n).toModel.unpack n := by
  obtain ⟨N, t, hrounds, hunpack⟩ :=
    exists_rounds_ofScientific hn (show (0 : ℤ) ≤ 2 ^ 11 by norm_num) (by omega)
  have hofNat : Float.ofNat n = Float.ofScientific n ((0 : ℤ) < 0) (0 : ℤ).natAbs := rfl
  rw [zpow_zero, mul_one] at hrounds
  rw [hofNat, hunpack]
  exact yields_pack_reading hrounds

end MarkovLogic.Double
