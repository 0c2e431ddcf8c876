/-
**How doubles are rounded.**

An operation computes a mantissa together with what is missing from it, cuts the mantissa down to
the bits that a double has, and rounds to the nearest mantissa, to the even one of two.  A round bit
and a sticky bit are all that is kept of the bits cut off, and it is enough: the mantissa that is
chosen is the one nearest to the exact result in units of its exponent.

Only results that are not negative are followed up here.

Main definitions:

* `Double.Describes` — what a mantissa with its two bits says of a number;
* `Double.Rounds` — a number is rounded to a mantissa with an exponent;
* `Double.reading` — the reading with this mantissa and exponent.

Main results:

* `Double.Describes.shiftRight` — bits can be cut off a description;
* `Double.exists_roundWithAccuracy`, `Double.exists_round` — **the result is the exact result,
  rounded**;
* `Double.unpack_pack_reading` — what is rounded is written and read, or infinity is.
-/
import MarkovLogic.Proofs.Scalar.Value

set_option autoImplicit false

namespace MarkovLogic.Double

open Float.Model Float.Model.UnpackedFloat

/-! ### Mantissas with two further bits -/

/-- The number is the mantissa, or less than half above it, or half, or more, as the bits say. -/
def Describes (em : ExtendedMantissa) (x : ℚ) : Prop :=
  match em.roundBit, em.stickyBit with
  | false, false => x = em.mantissa
  | false, true => em.mantissa < x ∧ x < em.mantissa + 1 / 2
  | true, false => x = em.mantissa + 1 / 2
  | true, true => em.mantissa + 1 / 2 < x ∧ x < em.mantissa + 1

namespace Describes

variable {em : ExtendedMantissa} {x : ℚ}

/-- The mantissa is the number rounded down. -/
theorem bounds (h : Describes em x) : (em.mantissa : ℚ) ≤ x ∧ x < em.mantissa + 1 := by
  obtain ⟨m, r, s⟩ := em
  cases r <;> cases s <;> simp only [Describes] at h ⊢ <;> constructor <;> linarith

/-- Half of a number is described with one bit less. -/
theorem shiftRightOne (h : Describes em x) : Describes em.shiftRightOne (x / 2) := by
  obtain ⟨m, r, s⟩ := em
  have hsplit : (m : ℚ) = 2 * ((m / 2 : ℕ) : ℚ) + ((m % 2 : ℕ) : ℚ) := by
    exact_mod_cast (Nat.div_add_mod m 2).symm
  have hshift : ExtendedMantissa.shiftRightOne ⟨m, r, s⟩ = ⟨m / 2, m % 2 != 0, r || s⟩ := rfl
  rcases Nat.mod_two_eq_zero_or_one m with hm | hm
  · -- the bit that is cut off is zero, so less than half is missing
    have hround : (m % 2 != 0) = false := by rw [hm]; rfl
    rw [hm, Nat.cast_zero, add_zero] at hsplit
    rw [hshift, hround]
    cases r <;> cases s <;> simp only [Describes, Bool.or_false, Bool.or_true] at h ⊢
    · linarith
    · exact ⟨by linarith, by linarith⟩
    · exact ⟨by linarith, by linarith⟩
    · exact ⟨by linarith, by linarith⟩
  · -- it is one, so half or more is missing
    have hround : (m % 2 != 0) = true := by rw [hm]; rfl
    rw [hm, Nat.cast_one] at hsplit
    rw [hshift, hround]
    cases r <;> cases s <;> simp only [Describes, Bool.or_false, Bool.or_true] at h ⊢
    · linarith
    · exact ⟨by linarith, by linarith⟩
    · exact ⟨by linarith, by linarith⟩
    · exact ⟨by linarith, by linarith⟩

/-- **Bits can be cut off a description.** -/
theorem shiftRight (h : Describes em x) (k : ℕ) : Describes (em >>> k) (x / 2 ^ k) := by
  change Describes (Nat.repeat ExtendedMantissa.shiftRightOne k em) (x / 2 ^ k)
  induction k with
  | zero => simpa [Nat.repeat] using h
  | succ k ih =>
      rw [Nat.repeat, pow_succ, ← div_div]
      exact ih.shiftRightOne

/-- The rounded mantissa is nearest to the number, and even if two are. -/
theorem near (h : Describes em x) : |x - em.roundedMantissa| ≤ 1 / 2 ∧
    (|x - em.roundedMantissa| = 1 / 2 → em.roundedMantissa % 2 = 0) := by
  obtain ⟨m, r, s⟩ := em
  cases r <;> cases s <;> simp only [Describes] at h
  · have hround : (ExtendedMantissa.mk m false false).roundedMantissa = m := rfl
    rw [hround, h, sub_self, abs_zero]
    norm_num
  · have hround : (ExtendedMantissa.mk m false true).roundedMantissa = m := rfl
    have hlt : |x - m| < 1 / 2 := abs_lt.2 ⟨by linarith, by linarith⟩
    rw [hround]
    exact ⟨hlt.le, fun heq => absurd heq hlt.ne⟩
  · -- half way: up from an odd mantissa and down from an even one
    have hround : (ExtendedMantissa.mk m true false).roundedMantissa = m + m % 2 := rfl
    rw [hround]
    refine ⟨?_, fun _ => by omega⟩
    rcases Nat.mod_two_eq_zero_or_one m with hm | hm <;> rw [hm, h] <;> push_cast <;>
      exact abs_le.2 ⟨by linarith, by linarith⟩
  · have hround : (ExtendedMantissa.mk m true true).roundedMantissa = m + 1 := rfl
    have hlt : |x - (m + 1 : ℕ)| < 1 / 2 := by
      push_cast
      exact abs_lt.2 ⟨by linarith, by linarith⟩
    rw [hround]
    exact ⟨hlt.le, fun heq => absurd heq hlt.ne⟩

end Describes

/-! ### Rounding -/

/-- A number is rounded to `N * 2 ^ t`: the exponent is the one that the number calls for, and in
its units the mantissa is nearest to the number, and even if two are. -/
structure Rounds (v : ℚ) (N : ℕ) (t : ℤ) : Prop where
  exponent_ge : -1074 ≤ t
  lt : v < 2 ^ (t + 53)
  normal : 2 ^ (t + 52) ≤ v ∨ t = -1074
  near : |v / 2 ^ t - N| ≤ 1 / 2
  even : |v / 2 ^ t - N| = 1 / 2 → N % 2 = 0

/-- A rounded mantissa has at most one bit too many. -/
theorem Rounds.le_two_pow {v : ℚ} {N : ℕ} {t : ℤ} (h : Rounds v N t) : N ≤ 2 ^ 53 := by
  have hunits : v / 2 ^ t < 2 ^ 53 := by
    rw [div_lt_iff₀ (by positivity), ← zpow_natCast, ← zpow_add₀ two_ne_zero, add_comm]
    exact h.lt
  have hlt : (N : ℚ) < 2 ^ 53 + 1 := by linarith [(abs_le.1 h.near).1]
  exact Nat.lt_succ_iff.1 (by exact_mod_cast hlt)

/-- The reading of a mantissa with an exponent: zero has a reading of its own, and so has the
mantissa with one bit too many that rounding up may lead to. -/
def reading (s : Sign) (N : ℕ) (t : ℤ) : UnpackedFloat :=
  if h : N = 0 then .zero s
  else if N < 2 ^ 53 then .finite s N t (Nat.pos_of_ne_zero h)
  else .finite s (2 ^ 52) (t + 1) (Nat.two_pow_pos 52)

/-- The exponent that leaves 53 bits, or the least one. -/
theorem targetExponent_binary64 (e : ℤ) :
    Format.binary64.targetExponent e = max (e - 53) (-1074) := rfl

/-- The exponent that a mantissa is shifted to. -/
theorem targetExponent_eq (m : ℕ) (e : ℤ) :
    Format.binary64.targetExponent (totalExponent m e) = max (m.log2 + e - 52) (-1074) := by
  rw [targetExponent_binary64, totalExponent]
  congr 1
  ring

/-- A mantissa that has at most 53 bits is left as it is. -/
theorem shiftToTargetExponent_of_lt {N : ℕ} {t : ℤ} (hN : N < 2 ^ 53) (ht : -1074 ≤ t) :
    shiftToTargetExponent .binary64 N t .exact = (⟨N, false, false⟩, t) := by
  have hlog : N.log2 ≤ 52 := by
    by_cases h : N = 0
    · simp [h]
    · exact Nat.lt_succ_iff.1 ((Nat.log2_lt h).2 hN)
  have hzero : (max ((N.log2 : ℤ) + t - 52) (-1074) - t).toNat = 0 := by omega
  rw [shiftToTargetExponent, targetExponent_eq, shiftToExponent, hzero]
  simp only [Nat.cast_zero, add_zero]
  rfl

/-- The mantissa with one bit too many is halved. -/
theorem shiftToTargetExponent_two_pow {t : ℤ} (ht : -1074 ≤ t) :
    shiftToTargetExponent .binary64 (2 ^ 53) t .exact = (⟨2 ^ 52, false, false⟩, t + 1) := by
  have hone : (max (((2 ^ 53 : ℕ).log2 : ℤ) + t - 52) (-1074) - t).toNat = 1 := by
    rw [Nat.log2_two_pow]
    omega
  rw [shiftToTargetExponent, targetExponent_eq, shiftToExponent, hone]
  rfl

/-- After the mantissa has been rounded, one bit too many is all that has to be put right. -/
theorem roundWithAccuracy_eq_reading {s : Sign} {m : ℕ} {e t : ℤ} {acc : Accuracy}
    {em : ExtendedMantissa} (hshift : shiftToTargetExponent .binary64 m e acc = (em, t))
    (hN : em.roundedMantissa ≤ 2 ^ 53) (ht : -1074 ≤ t) :
    roundWithAccuracy .binary64 s m e acc = reading s em.roundedMantissa t := by
  rw [roundWithAccuracy, hshift, reading]
  rcases Nat.lt_or_eq_of_le hN with hlt | heq
  · simp only [shiftToTargetExponent_of_lt hlt ht, if_pos hlt]
  · simp only [heq, shiftToTargetExponent_two_pow ht]
    rfl

/-- The exponent that a mantissa is shifted to is the one that the number calls for. -/
theorem bounds_of_target {m : ℕ} {e t : ℤ} {x : ℚ} (ht : max ((m.log2 : ℤ) + e - 52) (-1074) = t)
    (he : e ≤ t) (hle : (m : ℚ) ≤ x) (hlt : x < m + 1) :
    x * 2 ^ e < 2 ^ (t + 53) ∧ (2 ^ (t + 52) ≤ x * 2 ^ e ∨ t = -1074) := by
  constructor
  · have hbits : (m + 1 : ℚ) ≤ 2 ^ (m.log2 + 1) := by exact_mod_cast Nat.lt_log2_self
    calc x * 2 ^ e < 2 ^ (m.log2 + 1) * 2 ^ e := by
          gcongr
          exact hlt.trans_le hbits
      _ = 2 ^ (((m.log2 + 1 : ℕ) : ℤ) + e) := by rw [zpow_add₀ two_ne_zero, zpow_natCast]
      _ ≤ 2 ^ (t + 53) := zpow_le_zpow_right₀ one_le_two (by omega)
  · by_cases hleast : t = -1074
    · exact .inr hleast
    · have hexponent : t + 52 = (m.log2 : ℤ) + e := by omega
      have hne : m ≠ 0 := fun h => by
        subst h
        simp only [Nat.log2_zero] at hexponent
        omega
      have hbits : (2 ^ m.log2 : ℚ) ≤ m := by exact_mod_cast Nat.log2_self_le hne
      refine .inl ?_
      rw [hexponent, zpow_add₀ two_ne_zero, zpow_natCast]
      gcongr
      exact hbits.trans hle

/-- **The result is the exact result, rounded**, if it is described with no bit less than the result
will have. -/
theorem exists_roundWithAccuracy {s : Sign} {m : ℕ} {e : ℤ} {acc : Accuracy} {x : ℚ}
    (hd : Describes (ExtendedMantissa.ofMantissaAndAccuracy m acc) x)
    (he : e ≤ max (m.log2 + e - 52) (-1074)) :
    ∃ N t, Rounds (x * 2 ^ e) N t ∧ roundWithAccuracy .binary64 s m e acc = reading s N t := by
  generalize ht : max ((m.log2 : ℤ) + e - 52) (-1074) = t at he
  have hleast : -1074 ≤ t := by omega
  have hm : (ExtendedMantissa.ofMantissaAndAccuracy m acc).mantissa = m := by
    cases acc with
    | exact => rfl
    | inexact order => cases order <;> rfl
  have hbounds := hd.bounds
  rw [hm] at hbounds
  obtain ⟨hupper, hnormal⟩ := bounds_of_target ht he hbounds.1 hbounds.2
  obtain ⟨k, hk⟩ := Int.eq_ofNat_of_zero_le (Int.sub_nonneg_of_le he)
  obtain rfl : t = e + k := by omega
  have hshift : shiftToTargetExponent .binary64 m e acc =
      (ExtendedMantissa.ofMantissaAndAccuracy m acc >>> k, e + k) := by
    rw [shiftToTargetExponent, targetExponent_eq, ht, shiftToExponent, hk, Int.toNat_natCast]
  have hscale : x * 2 ^ e / 2 ^ (e + k) = x / 2 ^ k := by
    rw [zpow_add₀ two_ne_zero, zpow_natCast, mul_comm x, mul_div_mul_left _ _ (by positivity)]
  obtain ⟨hnear, heven⟩ := (hd.shiftRight k).near
  rw [← hscale] at hnear heven
  have hrounds : Rounds (x * 2 ^ e) _ (e + k) := ⟨hleast, hupper, hnormal, hnear, heven⟩
  exact ⟨_, _, hrounds, roundWithAccuracy_eq_reading hshift hrounds.le_two_pow hleast⟩

/-- Each power of two adds a bit. -/
theorem log2_mul_two_pow {m : ℕ} (hm : 0 < m) (k : ℕ) : (m * 2 ^ k).log2 = m.log2 + k := by
  have hne : m * 2 ^ k ≠ 0 := (Nat.mul_pos hm (Nat.two_pow_pos k)).ne'
  rw [Nat.log2_eq_iff hne]
  constructor
  · rw [pow_add]
    exact Nat.mul_le_mul_right _ (Nat.log2_self_le hm.ne')
  · rw [Nat.add_right_comm, pow_add]
    exact Nat.mul_lt_mul_of_pos_right Nat.lt_log2_self (Nat.two_pow_pos k)

/-- A mantissa describes itself. -/
theorem describes_exact (m : ℕ) :
    Describes (ExtendedMantissa.ofMantissaAndAccuracy m .exact) m := rfl

/-- **A number with any exponent is rounded**: it is first written with the bits that the result
will have. -/
theorem exists_round {s : Sign} {m : ℕ} (hm : 0 < m) (e : ℤ) :
    ∃ N t, Rounds (m * 2 ^ e) N t ∧ UnpackedFloat.round .binary64 s m e = reading s N t := by
  generalize hk : (e - max ((m.log2 : ℤ) + e - 52) (-1074)).toNat = k
  have hround : UnpackedFloat.round .binary64 s m e =
      roundWithAccuracy .binary64 s (m * 2 ^ k) (e - k) .exact := by
    rw [UnpackedFloat.round, targetExponent_eq, decreaseExponent, hk, Nat.shiftLeft_eq]
  have hvalue : ((m * 2 ^ k : ℕ) : ℚ) * 2 ^ (e - k) = m * 2 ^ e := by
    rw [Nat.cast_mul, Nat.cast_pow, Nat.cast_ofNat, mul_assoc, ← zpow_natCast,
      ← zpow_add₀ two_ne_zero, add_sub_cancel]
  have he : e - k ≤ max (((m * 2 ^ k).log2 : ℤ) + (e - k) - 52) (-1074) := by
    rw [log2_mul_two_pow hm]
    omega
  rw [hround, ← hvalue]
  exact exists_roundWithAccuracy (describes_exact _) he

/-! ### Writing what was rounded -/

/-- A reading that is rounded stands for the rounded number. -/
theorem amount_reading {v : ℚ} {N : ℕ} {t : ℤ} (h : Rounds v N t) :
    amount (reading .positive N t) = N * 2 ^ t := by
  rw [reading]
  split
  · rename_i hzero
    simp [hzero]
  · split
    · simp [amount, Sign.apply]
    · obtain rfl : N = 2 ^ 53 := Nat.le_antisymm h.le_two_pow (by omega)
      simp only [amount, Sign.apply]
      rw [zpow_add₀ two_ne_zero]
      push_cast
      ring

/-- A rounded mantissa has 53 bits, or the exponent is the least one. -/
theorem Rounds.two_pow_le {v : ℚ} {N : ℕ} {t : ℤ} (h : Rounds v N t) : 2 ^ 52 ≤ N ∨ t = -1074 := by
  refine h.normal.imp_left fun hnormal => ?_
  have hunits : (2 ^ 52 : ℚ) ≤ v / 2 ^ t := by
    rw [le_div_iff₀ (by positivity), ← zpow_natCast, ← zpow_add₀ two_ne_zero, add_comm]
    exact hnormal
  have hlt : (2 ^ 52 : ℚ) < N + 1 := by linarith [(abs_le.1 h.near).2]
  exact Nat.lt_succ_iff.1 (by exact_mod_cast hlt)

/-- **What is rounded is written and read**, unless it is so large that infinity is written. -/
theorem unpack_pack_reading {s : Sign} {v : ℚ} {N : ℕ} {t : ℤ} (h : Rounds v N t) :
    UnpackedFloat.unpack .binary64 (UnpackedFloat.pack .binary64 (reading s N t)) = reading s N t ∨
      2 ^ 1023 ≤ v ∧
        UnpackedFloat.unpack .binary64 (UnpackedFloat.pack .binary64 (reading s N t)) =
          .infinity s := by
  have hlarge (ht : 971 ≤ t) : 2 ^ 1023 ≤ v := by
    have hnormal := h.normal.resolve_right (by omega)
    calc (2 : ℚ) ^ 1023 = 2 ^ (1023 : ℤ) := (zpow_natCast 2 1023).symm
      _ ≤ 2 ^ (t + 52) := zpow_le_zpow_right₀ one_le_two (by omega)
      _ ≤ v := hnormal
  rw [reading]
  split
  · exact .inl unpack_packedZero
  · rename_i hne
    split
    · rename_i hlt
      by_cases ht : t ≤ 971
      · exact .inl (unpack_pack_finite _ ⟨hlt, h.exponent_ge, h.two_pow_le⟩ ht)
      · exact .inr ⟨hlarge (by omega), unpack_pack_overflow _ (by omega)⟩
    · have hge := h.exponent_ge
      by_cases ht : t + 1 ≤ 971
      · exact .inl (unpack_pack_finite _ ⟨by norm_num, by omega, .inl le_rfl⟩ ht)
      · exact .inr ⟨hlarge (by omega), unpack_pack_overflow _ (by omega)⟩

end MarkovLogic.Double
