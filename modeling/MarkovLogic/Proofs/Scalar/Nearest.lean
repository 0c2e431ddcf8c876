/-
**The double nearest to a number.**

A number that is not negative has a nearest double, the one with the even mantissa if there are two.
Beyond the greatest double the exponents are thought to go on: what is nearer to `2 ^ 1024`, and the
number half way, has infinity in its place.  So the double is a matter of the number alone, however
the number is written, and for each double it can be said which numbers lead to it.

Main definitions:

* `Double.overflowBound` — the number half way between the greatest double and `2 ^ 1024`;
* `Double.Nearest` — the reading of the double nearest to a number.

Main results:

* `Double.nearest_pack_reading` — **what is rounded and written is nearest**;
* `Double.Nearest.unique` — **only one double is nearest**;
* `Double.Nearest.positive_iff` — **the numbers whose nearest double is finite and positive**;
* `Double.nearest_ofScientific` — a number in scientific notation is read as the nearest double.
-/
import MarkovLogic.Proofs.Scalar.Arithmetic

set_option autoImplicit false

namespace MarkovLogic.Double

open Float.Model Float.Model.UnpackedFloat

/-! ### Rounding up to infinity -/

/-- The number half way between the greatest double and `2 ^ 1024`. -/
def overflowBound : ℚ := 2 ^ 1024 - 2 ^ 970

theorem overflowBound_eq : overflowBound = (2 ^ 53 - 1 / 2) * 2 ^ (971 : ℤ) := by
  have hlarge : (2 : ℚ) ^ 1024 = 2 ^ 54 * 2 ^ 970 := pow_add 2 54 970
  have hunit : (2 : ℚ) ^ (971 : ℤ) = 2 * 2 ^ 970 := (zpow_natCast 2 971).trans (pow_succ' 2 970)
  rw [overflowBound, hlarge, hunit]
  generalize (2 : ℚ) ^ 970 = unit
  ring

/-- The last mantissa is odd, so the number half way above it is rounded up. -/
theorem lt_iff_of_near {q : ℚ} {N : ℕ} (hN : N ≤ 2 ^ 53) (hnear : |q - N| ≤ 1 / 2)
    (heven : |q - N| = 1 / 2 → N % 2 = 0) : q < 2 ^ 53 - 1 / 2 ↔ N < 2 ^ 53 := by
  obtain ⟨hlower, hupper⟩ := abs_le.1 hnear
  constructor
  · refine fun hlt => lt_of_le_of_ne hN fun heq => ?_
    rw [heq] at hlower
    push_cast at hlower
    linarith
  · intro hlt
    have hcast : (N + 1 : ℚ) ≤ 2 ^ 53 := by exact_mod_cast hlt
    refine lt_of_le_of_ne (by linarith) fun heq => ?_
    have hlast : (N + 1 : ℚ) = 2 ^ 53 := by linarith
    have hodd : N + 1 = 2 ^ 53 := by exact_mod_cast hlast
    have htie : |q - N| = 1 / 2 := by
      rw [show q - N = 1 / 2 by linarith]
      norm_num
    have := heven htie
    omega

/-- **A number below the bound is rounded to a double**, and any other to an exponent that is too
large or to one bit too many with the largest. -/
theorem Rounds.lt_overflowBound_iff {v : ℚ} {N : ℕ} {t : ℤ} (h : Rounds v N t) :
    v < overflowBound ↔ t ≤ 970 ∨ t = 971 ∧ N < 2 ^ 53 := by
  rw [overflowBound_eq]
  rcases lt_trichotomy t 971 with ht | rfl | ht
  · have hlt : v < (2 ^ 53 - 1 / 2) * 2 ^ (971 : ℤ) := calc
      v < 2 ^ (t + 53) := h.lt
      _ ≤ 2 ^ (52 + 971 : ℤ) := zpow_le_zpow_right₀ one_le_two (by omega)
      _ = 2 ^ (52 : ℤ) * 2 ^ (971 : ℤ) := zpow_add₀ two_ne_zero 52 971
      _ ≤ (2 ^ 53 - 1 / 2) * 2 ^ (971 : ℤ) := by
          gcongr
          norm_num
    exact ⟨fun _ => .inl (by omega), fun _ => hlt⟩
  · rw [← div_lt_iff₀ (by positivity), lt_iff_of_near h.le_two_pow h.near h.even]
    omega
  · have hle : (2 ^ 53 - 1 / 2) * 2 ^ (971 : ℤ) ≤ v := calc
      (2 ^ 53 - 1 / 2) * (2 : ℚ) ^ (971 : ℤ) ≤ 2 ^ (53 : ℤ) * 2 ^ (971 : ℤ) := by
          gcongr
          norm_num
      _ = 2 ^ (53 + 971 : ℤ) := (zpow_add₀ two_ne_zero 53 971).symm
      _ ≤ 2 ^ (t + 52) := zpow_le_zpow_right₀ one_le_two (by omega)
      _ ≤ v := h.normal.resolve_right (by omega)
    exact ⟨fun hlt => absurd hle (not_le.2 hlt), fun h => by omega⟩

/-- What is rounded is written and read as it is, with either sign, if the number is below the
bound. -/
theorem Rounds.unpack_pack {v : ℚ} {N : ℕ} {t : ℤ} (h : Rounds v N t) (hlt : v < overflowBound)
    (s : Sign) :
    UnpackedFloat.unpack .binary64 (UnpackedFloat.pack .binary64 (reading s N t)) =
      reading s N t := by
  have hge := h.exponent_ge
  have ht := h.lt_overflowBound_iff.1 hlt
  rw [reading]
  split
  · exact unpack_packedZero
  · split
    · exact unpack_pack_finite _ ⟨‹_›, hge, h.two_pow_le⟩ (by omega)
    · exact unpack_pack_finite _ ⟨by norm_num, by omega, .inl le_rfl⟩ (by omega)

/-! ### The nearest double -/

/-- The reading of the double nearest to a number that is not negative. -/
inductive Nearest (v : ℚ) : UnpackedFloat → Prop
  | rounded {N : ℕ} {t : ℤ} (below : v < overflowBound) (rounds : Rounds v N t) :
    Nearest v (reading .positive N t)
  | infinity (above : overflowBound ≤ v) : Nearest v (.infinity .positive)

/-- **What is rounded and written is nearest.** -/
theorem nearest_pack_reading {v : ℚ} {N : ℕ} {t : ℤ} (h : Rounds v N t) :
    Nearest v (UnpackedFloat.unpack .binary64 (UnpackedFloat.pack .binary64
      (reading .positive N t))) := by
  have hge := h.exponent_ge
  by_cases hlt : v < overflowBound
  · rw [h.unpack_pack hlt]
    exact .rounded hlt h
  · have ht := mt h.lt_overflowBound_iff.2 hlt
    have hne : N ≠ 0 := by
      have := h.two_pow_le
      omega
    have hinfinity : UnpackedFloat.unpack .binary64 (UnpackedFloat.pack .binary64
        (reading .positive N t)) = .infinity .positive := by
      rw [reading, dif_neg hne]
      split
      · exact unpack_pack_overflow _ (by omega)
      · exact unpack_pack_overflow _ (by omega)
    rw [hinfinity]
    exact .infinity (not_lt.1 hlt)

/-- The exponent is the one that the number calls for. -/
theorem Rounds.exponent_le {v : ℚ} {N N' : ℕ} {t t' : ℤ} (h : Rounds v N t)
    (h' : Rounds v N' t') : t ≤ t' := by
  rcases h.normal with hnormal | rfl
  · have hlt : (2 : ℚ) ^ (t + 52) < 2 ^ (t' + 53) := hnormal.trans_lt h'.lt
    have := (zpow_lt_zpow_iff_right₀ one_lt_two).1 hlt
    omega
  · exact h'.exponent_ge

/-- A number is rounded in one way: two mantissas next to each other are not both even. -/
theorem Rounds.unique {v : ℚ} {N N' : ℕ} {t t' : ℤ} (h : Rounds v N t) (h' : Rounds v N' t') :
    N = N' ∧ t = t' := by
  obtain rfl : t = t' := le_antisymm (h.exponent_le h') (h'.exponent_le h)
  refine ⟨?_, rfl⟩
  have hnear := abs_le.1 h.near
  have hnear' := abs_le.1 h'.near
  have heven := h.even
  have heven' := h'.even
  generalize v / 2 ^ t = q at hnear hnear' heven heven'
  by_contra hne
  wlog hlt : N < N' generalizing N N'
  · exact this h' h hnear' hnear heven' heven (Ne.symm hne) (by omega)
  have hcast : (N + 1 : ℚ) ≤ N' := by exact_mod_cast hlt
  have hup : |q - N| = 1 / 2 := by
    rw [abs_of_nonneg (by linarith)]
    linarith
  have hdown : |q - N'| = 1 / 2 := by
    rw [abs_of_nonpos (by linarith)]
    linarith
  have hnext : N' = N + 1 := by
    have : (N' : ℚ) = N + 1 := by linarith
    exact_mod_cast this
  have := heven hup
  have := heven' hdown
  omega

namespace Nearest

variable {v : ℚ} {u u' : UnpackedFloat}

/-- **Only one double is nearest.** -/
theorem unique (h : Nearest v u) (h' : Nearest v u') : u = u' := by
  cases h with
  | rounded below rounds =>
      cases h' with
      | rounded _ rounds' =>
          obtain ⟨rfl, rfl⟩ := rounds.unique rounds'
          rfl
      | infinity above => exact absurd above (not_le.2 below)
  | infinity above =>
      cases h' with
      | rounded below _ => exact absurd above (not_le.2 below)
      | infinity _ => rfl

/-- **The numbers whose nearest double is finite and positive**: those above half of the least
positive double and below the bound. -/
theorem positive_iff {x : Float} (h : Nearest v x.toModel.unpack) :
    x.isFinite = true ∧ 0 < x ↔ 2 ^ (-1075 : ℤ) < v ∧ v < overflowBound := by
  generalize hu : x.toModel.unpack = u at h
  cases h with
  | infinity above =>
      refine ⟨fun hx => ?_, fun hv => absurd above (not_le.2 hv.2)⟩
      have hfinite : x.toModel.unpack.isFinite = true := hx.1
      rw [hu] at hfinite
      cases hfinite
  | @rounded N t below rounds =>
      have hfinite : x.isFinite = true := by
        change x.toModel.unpack.isFinite = true
        rw [hu, reading]
        split
        · rfl
        · split <;> rfl
      have hrounds : RoundsTo v (value x) := by
        rw [value, hu, amount_reading rounds]
        exact ⟨N, t, rounds, rfl⟩
      rw [and_iff_right hfinite, zero_lt_iff hfinite, and_iff_left below,
        hrounds.nonneg.lt_iff_ne', ne_eq, hrounds.eq_zero_iff, not_le]

/-- Up to half of the least positive double, zero is nearest. -/
theorem zero (hv : 0 ≤ v) (hle : v ≤ 2 ^ (-1075 : ℤ)) : Nearest v (.zero .positive) := by
  have hhalf : (2 : ℚ) ^ (-1075 : ℤ) = 1 / 2 * 2 ^ (-1074 : ℤ) := by
    rw [show (-1075 : ℤ) = -1 + -1074 by norm_num, zpow_add₀ two_ne_zero]
    norm_num
  have hlt : v < 2 ^ (-1074 + 53 : ℤ) :=
    hle.trans_lt (zpow_lt_zpow_right₀ one_lt_two (by norm_num))
  have hnear : |v / 2 ^ (-1074 : ℤ) - (0 : ℕ)| ≤ 1 / 2 := by
    rw [Nat.cast_zero, sub_zero, abs_of_nonneg (by positivity), div_le_iff₀ (by positivity),
      ← hhalf]
    exact hle
  have hrounds : Rounds v 0 (-1074) := ⟨le_rfl, hlt, .inr rfl, hnear, fun _ => rfl⟩
  have hbelow : v < overflowBound := hrounds.lt_overflowBound_iff.2 (.inl (by norm_num))
  exact .rounded hbelow hrounds

end Nearest

/-! ### Scientific notation -/

/-- **A number in scientific notation is read as the nearest double.** -/
theorem nearest_ofScientific {n : ℕ} (hn : 0 < n) {power : ℤ} (hlarge : power ≤ 2 ^ 11)
    (hsmall : -(2 ^ 11 + (n.log2 : ℤ)) ≤ power) :
    Nearest (n * 10 ^ power) (Float.ofScientific n (power < 0) power.natAbs).toModel.unpack := by
  obtain ⟨N, t, hrounds, hunpack⟩ := exists_rounds_ofScientific hn hlarge hsmall
  rw [hunpack]
  exact nearest_pack_reading hrounds

end MarkovLogic.Double
