/-
**The numbers that doubles stand for.**

A finite double is a sign, a mantissa of at most 53 bits and a power of two.  Readings of this form
are written and read again without a change, as long as the exponent is not too large; with a larger
one infinity is written.  So a statement about the number that an operation yields can be proved of
the reading that the operation computes.

Main definitions:

* `Double.Canonical` — the mantissas and exponents of doubles;
* `Double.amount`, `Double.value` — the number that a reading, and a double, stands for.

Main results:

* `Double.canonical_of_unpack` — finite doubles are read in this form;
* `Double.unpack_pack_finite` — **what has this form is written and read without a change**;
* `Double.zero_lt_iff`, `Double.value_le_one` — the comparisons with zero and one.
-/
import MarkovLogic.Proofs.Scalar.Order

set_option autoImplicit false

namespace MarkovLogic.Double

open Float.Model Float.Model.UnpackedFloat

/-! ### Canonical readings -/

/-- A mantissa and an exponent as doubles have them: at most 53 bits, and fewer bits only with the
least exponent. -/
structure Canonical (m : ℕ) (e : ℤ) : Prop where
  mantissa_lt : m < 2 ^ 53
  exponent_ge : -1074 ≤ e
  normal : 2 ^ 52 ≤ m ∨ e = -1074

/-- The implicit bit stands in front of the mantissa. -/
theorem toNat_one_append (m : BitVec 52) : (1#1 ++ m).toNat = 2 ^ 52 + m.toNat := by
  rw [BitVec.toNat_append, ← Nat.shiftLeft_add_eq_or_of_lt m.isLt]
  simp [Nat.shiftLeft_eq]

/-- **Finite doubles are read in this form.** -/
theorem canonical_of_unpack {w : BitVec Format.binary64.numBits} {s : Sign} {m : ℕ} {e : ℤ}
    {h : 0 < m} (hw : UnpackedFloat.unpack .binary64 w = .finite s m e h) :
    Canonical m e ∧ e ≤ 971 := by
  have hmantissa : (unpackMantissa w).toNat < 2 ^ 52 := (unpackMantissa w).isLt
  have hexponent : (unpackExponent w).toNat < 2 ^ 11 := (unpackExponent w).isLt
  have hbias : Format.binary64.exponentBias = 1023 := rfl
  simp only [UnpackedFloat.unpack] at hw
  split at hw
  · split at hw <;> cases hw
  · rename_i hnotmax
    have hnotmax : (unpackExponent w).toNat ≠ 2047 := fun heq =>
      hnotmax (BitVec.eq_of_toNat_eq heq)
    split at hw
    · rename_i hzero
      split at hw
      · cases hw
      · obtain ⟨-, rfl, rfl⟩ := UnpackedFloat.finite.inj hw
        rw [hzero, hbias]
        exact ⟨⟨by omega, by simp, .inr (by simp)⟩, by simp⟩
    · rename_i hnotzero
      have hnotzero : (unpackExponent w).toNat ≠ 0 := fun heq =>
        hnotzero (BitVec.eq_of_toNat_eq heq)
      obtain ⟨-, rfl, rfl⟩ := UnpackedFloat.finite.inj hw
      rw [toNat_one_append, hbias]
      exact ⟨⟨by omega, by omega, .inl (by omega)⟩, by omega⟩

/-- Finite numbers are written in one of three ways: as infinity, with the first bit of the mantissa
left out, or with the whole mantissa. -/
theorem pack_finite (s : Sign) {m : ℕ} {e : ℤ} (h : 0 < m) :
    UnpackedFloat.pack .binary64 (.finite s m e h) =
      if 2047 ≤ (e + 1075).toNat then packedInfinity .binary64 s
      else if m.log2 = 52 then
        packComponents .binary64 s (BitVec.ofNat 11 (e + 1075).toNat) (BitVec.ofNat 52 m)
      else packComponents .binary64 s 0#11 (BitVec.ofNat 52 m) := by
  have hbias : e + (Format.binary64.exponentBias : ℤ) + (52 : ℕ) = e + 1075 := by
    have : Format.binary64.exponentBias = 1023 := rfl
    omega
  have hlarge : 2 ^ 11 ≤ (e + 1075).toNat + 1 ↔ 2047 ≤ (e + 1075).toNat := by omega
  have hbits : m.log2 + 1 = Format.binary64.mantissaBits ↔ m.log2 = 52 := by
    have : Format.binary64.mantissaBits = 53 := rfl
    omega
  simp only [UnpackedFloat.pack, hbias, hlarge, hbits]

/-- A mantissa of 53 bits is written and read without a change. -/
theorem unpack_pack_normal {s : Sign} {m : ℕ} {e : ℤ} (h : 0 < m) (hle : 2 ^ 52 ≤ m)
    (hlt : m < 2 ^ 53) (hge : -1074 ≤ e) (he : e ≤ 971) :
    UnpackedFloat.unpack .binary64 (UnpackedFloat.pack .binary64 (.finite s m e h)) =
      .finite s m e h := by
  have hbias : Format.binary64.exponentBias = 1023 := rfl
  have hlog : m.log2 = 52 :=
    Nat.le_antisymm (Nat.lt_succ_iff.1 ((Nat.log2_lt h.ne').2 hlt)) ((Nat.le_log2 h.ne').2 hle)
  have hexponent : (BitVec.ofNat 11 (e + 1075).toNat).toNat = (e + 1075).toNat := by
    rw [BitVec.toNat_ofNat, Nat.mod_eq_of_lt (by omega)]
  have hnotmax : BitVec.ofNat 11 (e + 1075).toNat ≠ -1#11 := fun heq => by
    have := congrArg BitVec.toNat heq
    rw [hexponent] at this
    change (e + 1075).toNat = 2047 at this
    omega
  have hnotzero : BitVec.ofNat 11 (e + 1075).toNat ≠ 0#11 := fun heq => by
    have := congrArg BitVec.toNat heq
    rw [hexponent] at this
    change (e + 1075).toNat = 0 at this
    omega
  have hmantissa : (1#1 ++ BitVec.ofNat 52 m).toNat = m := by
    rw [toNat_one_append, BitVec.toNat_ofNat]
    omega
  rw [pack_finite, if_neg (by omega), if_pos hlog]
  simp only [UnpackedFloat.unpack, unpackMantissa_packComponents, unpackExponent_packComponents,
    unpackSign_packComponents, Sign.ofBitVec_toBitVec]
  rw [if_neg hnotmax, if_neg hnotzero]
  simp only [hmantissa, hexponent, hbias, UnpackedFloat.finite.injEq]
  exact ⟨trivial, trivial, by omega⟩

/-- So is one with fewer bits, if the exponent is the least one. -/
theorem unpack_pack_subnormal {s : Sign} {m : ℕ} (h : 0 < m) (hlt : m < 2 ^ 52) :
    UnpackedFloat.unpack .binary64 (UnpackedFloat.pack .binary64 (.finite s m (-1074) h)) =
      .finite s m (-1074) h := by
  have hbias : Format.binary64.exponentBias = 1023 := rfl
  have hlog : m.log2 ≠ 52 := ((Nat.log2_lt h.ne').2 hlt).ne
  have hmantissa : (BitVec.ofNat 52 m).toNat = m := by
    rw [BitVec.toNat_ofNat, Nat.mod_eq_of_lt hlt]
  have hnotzero : BitVec.ofNat 52 m ≠ 0#52 := fun heq => by
    have := congrArg BitVec.toNat heq
    rw [hmantissa] at this
    exact h.ne' this
  rw [pack_finite, if_neg (by omega), if_neg hlog]
  simp only [UnpackedFloat.unpack, unpackMantissa_packComponents, unpackExponent_packComponents,
    unpackSign_packComponents, Sign.ofBitVec_toBitVec]
  rw [if_neg (by decide), if_pos trivial, dif_neg hnotzero]
  simp only [hmantissa, hbias, UnpackedFloat.finite.injEq]
  exact ⟨trivial, trivial, by simp⟩

/-- **What has this form is written and read without a change.** -/
theorem unpack_pack_finite {s : Sign} {m : ℕ} {e : ℤ} (h : 0 < m) (hc : Canonical m e)
    (he : e ≤ 971) :
    UnpackedFloat.unpack .binary64 (UnpackedFloat.pack .binary64 (.finite s m e h)) =
      .finite s m e h := by
  by_cases hm : 2 ^ 52 ≤ m
  · exact unpack_pack_normal h hm hc.mantissa_lt hc.exponent_ge he
  · obtain rfl : e = -1074 := hc.normal.resolve_left hm
    exact unpack_pack_subnormal h (Nat.lt_of_not_le hm)

/-- With a larger exponent infinity is written. -/
theorem unpack_pack_overflow {s : Sign} {m : ℕ} {e : ℤ} (h : 0 < m) (he : 971 < e) :
    UnpackedFloat.unpack .binary64 (UnpackedFloat.pack .binary64 (.finite s m e h)) =
      .infinity s := by
  rw [pack_finite, if_pos (by omega), packedInfinity]
  simp only [UnpackedFloat.unpack, unpackMantissa_packComponents, unpackExponent_packComponents,
    unpackSign_packComponents, Sign.ofBitVec_toBitVec]
  rfl

/-! ### Values -/

/-- The number that a reading stands for; zero if there is none. -/
def amount : UnpackedFloat → ℚ
  | .finite s m e _ => s.apply m * 2 ^ e
  | _ => 0

@[simp] theorem amount_zero (s : Sign) : amount (.zero s) = 0 := rfl

/-- The number that a double stands for; zero if there is none. -/
def value (x : Float) : ℚ := amount x.toModel.unpack

@[simp] theorem value_zero : value 0 = 0 := rfl

@[simp] theorem value_one : value 1 = 1 := by
  have hamount : value 1 = (2 ^ 52 : ℕ) * 2 ^ (-52 : ℤ) := rfl
  rw [hamount]
  norm_num

/-- A finite double that stands for no negative number is read as zero or as a positive number. -/
theorem unpack_of_nonneg {x : Float} (hx : x.isFinite = true) (h : 0 ≤ value x) :
    (∃ s, x.toModel.unpack = .zero s ∧ value x = 0) ∨
      ∃ m e hm, x.toModel.unpack = .finite .positive m e hm ∧ value x = m * 2 ^ e ∧
        Canonical m e ∧ e ≤ 971 := by
  change x.toModel.unpack.isFinite = true at hx
  cases hu : x.toModel.unpack with
  | notANumber =>
    rw [hu] at hx
    cases hx
  | infinity s =>
    rw [hu] at hx
    cases hx
  | zero s => exact .inl ⟨s, rfl, by rw [value, hu, amount_zero]⟩
  | finite s m e hm =>
    have hvalue : value x = s.apply m * 2 ^ e := by rw [value, hu, amount]
    cases s with
    | negative =>
      have hpos : (0 : ℚ) < m * 2 ^ e := by positivity
      simp only [hvalue, Sign.apply, Int.cast_neg, Int.cast_natCast, neg_mul] at h
      linarith
    | positive =>
      exact .inr ⟨m, e, hm, rfl, by simpa [Sign.apply] using hvalue, canonical_of_unpack hu⟩

/-- No finite double stands for a number of `2 ^ 1024` or more. -/
theorem value_lt {x : Float} (hx : x.isFinite = true) (h : 0 ≤ value x) : value x < 2 ^ 1024 := by
  rcases unpack_of_nonneg hx h with ⟨-, -, hzero⟩ | ⟨m, e, -, -, hvalue, hc, he⟩
  · rw [hzero]
    positivity
  · calc value x = m * 2 ^ e := hvalue
      _ < 2 ^ 53 * 2 ^ e := by
          gcongr
          exact_mod_cast hc.mantissa_lt
      _ ≤ 2 ^ 53 * 2 ^ (971 : ℤ) := by
          gcongr
          norm_num
      _ = 2 ^ 1024 := by
          rw [← zpow_natCast, ← zpow_natCast, ← zpow_add₀ two_ne_zero]
          rfl

/-- The positive finite doubles are those that stand for a positive number. -/
theorem zero_lt_iff {x : Float} (hx : x.isFinite = true) : 0 < x ↔ 0 < value x := by
  have hzero : (0 : Float).toModel.unpack = .zero .positive := rfl
  rw [lt_iff_compare, hzero, value]
  change x.toModel.unpack.isFinite = true at hx
  cases hu : x.toModel.unpack with
  | notANumber =>
    rw [hu] at hx
    cases hx
  | infinity s =>
    rw [hu] at hx
    cases hx
  | zero s => simp [UnpackedFloat.compare]
  | finite s m e hm =>
    have hpos : (0 : ℚ) < m * 2 ^ e := by positivity
    cases s with
    | negative => simp [UnpackedFloat.compare, amount, Sign.apply, hpos.le]
    | positive => simp [UnpackedFloat.compare, amount, Sign.apply, hpos]

/-- A number that is neither below zero nor above one stands for a number of the unit interval. -/
theorem value_mem_unitInterval {x : Float} (hx : x.isNaN = false) (hzero : ¬x < 0) (hone : ¬1 < x) :
    x.isFinite = true ∧ 0 ≤ value x ∧ value x ≤ 1 := by
  have hunpack₀ : (0 : Float).toModel.unpack = .zero .positive := rfl
  have hunpack₁ : (1 : Float).toModel.unpack = .finite .positive (2 ^ 52) (-52) (by decide) := rfl
  change x.toModel.unpack.isNaN = false at hx
  change x.toModel.unpack.isFinite = true ∧ _
  rw [lt_iff_compare, hunpack₀] at hzero
  rw [lt_iff_compare, hunpack₁] at hone
  rw [value]
  cases hu : x.toModel.unpack with
  | notANumber =>
    rw [hu] at hx
    cases hx
  | infinity s =>
    rw [hu] at hzero hone
    cases s with
    | negative => exact absurd rfl hzero
    | positive => exact absurd rfl hone
  | zero s => simp [UnpackedFloat.isFinite]
  | finite s m e hm =>
    rw [hu] at hzero hone
    cases s with
    | negative => exact absurd rfl hzero
    | positive =>
      have hamount : amount (.finite .positive m e hm) = m * 2 ^ e := by simp [amount, Sign.apply]
      obtain ⟨hc, -⟩ := canonical_of_unpack hu
      rw [hamount]
      refine ⟨rfl, by positivity, ?_⟩
      have horder : ¬(-52 < e ∨ -52 = e ∧ 2 ^ 52 < m) := fun hlt => by
        refine hone (congrArg some (Ordering.then_eq_lt.2 ?_))
        rwa [compare_lt_iff_lt, compare_eq_iff_eq, compare_lt_iff_lt]
      rcases lt_trichotomy e (-52) with he | rfl | he
      · calc (m : ℚ) * 2 ^ e ≤ 2 ^ 53 * 2 ^ (-53 : ℤ) := by
              gcongr
              · exact_mod_cast hc.mantissa_lt.le
              · norm_num
              · omega
          _ = 1 := by norm_num
      · have hle : (m : ℚ) ≤ 2 ^ 52 := by
          have : m ≤ 2 ^ 52 := by omega
          exact_mod_cast this
        calc (m : ℚ) * 2 ^ (-52 : ℤ) ≤ 2 ^ 52 * 2 ^ (-52 : ℤ) := by gcongr
          _ = 1 := by norm_num
      · exact absurd (.inl he) horder

end MarkovLogic.Double
