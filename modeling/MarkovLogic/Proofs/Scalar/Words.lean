/-
**Doubles and their words.**

A double is a word of 64 bits: a sign, an exponent and a mantissa.  The arithmetic of doubles reads
the word, computes, and writes a word again, so a statement about two operations in a row has to
cross a writing and a reading.  A word that was read is written as it was; here is the other
crossing that changes of sign need, that the other sign written is the other sign read.

Main results:

* `Double.unpack_neg` — **a double with the other sign reads as the reading with the other sign**;
* `Double.neg_neg`, `Double.isFinite_neg`, `Double.isNaN_neg` — what follows for changes of sign.
-/
import MarkovLogic.Scalar
import Mathlib

set_option autoImplicit false

namespace MarkovLogic.Double

open Float.Model Float.Model.UnpackedFloat

/-! ### Words -/

/-- Parts with the other sign are read with the other sign. -/
theorem unpack_packComponents_neg (s : Sign) (e : BitVec 11) (m : BitVec 52) :
    UnpackedFloat.unpack .binary64 (packComponents .binary64 (-s) e m) =
      (UnpackedFloat.unpack .binary64 (packComponents .binary64 s e m)).neg := by
  simp only [UnpackedFloat.unpack, unpackMantissa_packComponents, unpackExponent_packComponents,
    unpackSign_packComponents, Sign.ofBitVec_toBitVec]
  split
  · split <;> rfl
  · split
    · split <;> rfl
    · rfl

/-- What was read from a word is written and read again without a change. -/
theorem unpack_pack_unpack (w : BitVec Format.binary64.numBits) :
    UnpackedFloat.unpack .binary64 (UnpackedFloat.pack .binary64
      (UnpackedFloat.unpack .binary64 w)) = UnpackedFloat.unpack .binary64 w := by
  rw [UnpackedFloat.pack_unpack]
  split
  · -- the word is not a number, and any such word reads alike
    rename_i hnan
    obtain ⟨he, hm⟩ := of_decide_eq_true hnan
    rw [unpack_packedNaN, UnpackedFloat.unpack, if_pos he, if_neg hm]
  · rfl

/-- The other sign is written and read again without a change. -/
theorem unpack_pack_neg_unpack (w : BitVec Format.binary64.numBits) :
    UnpackedFloat.unpack .binary64 (UnpackedFloat.pack .binary64
      (UnpackedFloat.unpack .binary64 w).neg) = (UnpackedFloat.unpack .binary64 w).neg := by
  have hneg := unpack_packComponents_neg (Sign.ofBitVec (unpackSign w)) (unpackExponent w)
    (unpackMantissa w)
  rw [packComponents_unpackSign_unpackExponent_unpackMantissa w] at hneg
  rw [← hneg, unpack_pack_unpack]

/-! ### Changing the sign -/

/-- **A double with the other sign reads as the reading with the other sign.** -/
theorem unpack_neg (x : Float) : (-x).toModel.unpack = x.toModel.unpack.neg :=
  unpack_pack_neg_unpack x.toModel.toBits.toBitVec

/-- A double that is read and written is the same. -/
theorem pack_unpack (x : Float) : Float.ofModel (pack x.toModel.unpack) = x := by
  obtain ⟨⟨bits, valid⟩⟩ := x
  simp only [Float.Model.pack, Float.Model.unpack, pack_unpack_of_valid valid]

/-- Doubles that are read alike are equal. -/
theorem eq_of_unpack_eq {x y : Float} (h : x.toModel.unpack = y.toModel.unpack) : x = y := by
  rw [← pack_unpack x, h, pack_unpack]

/-- The other sign twice is the double itself. -/
@[simp] theorem neg_neg (x : Float) : - -x = x := by
  have hneg : - -x = Float.ofModel (pack (-x).toModel.unpack.neg) := rfl
  have hread : x.toModel.unpack.neg.neg = x.toModel.unpack := by
    cases x.toModel.unpack with
    | notANumber => rfl
    | infinity s => cases s <;> rfl
    | zero s => cases s <;> rfl
    | finite s m e hm => cases s <;> rfl
  rw [hneg, unpack_neg, hread, pack_unpack]

/-- A double is finite with either sign. -/
@[simp] theorem isFinite_neg (x : Float) : (-x).isFinite = x.isFinite := by
  change (-x).toModel.unpack.isFinite = x.toModel.unpack.isFinite
  rw [unpack_neg]
  cases x.toModel.unpack <;> rfl

/-- A double is a number with either sign. -/
@[simp] theorem isNaN_neg (x : Float) : (-x).isNaN = x.isNaN := by
  change (-x).toModel.unpack.isNaN = x.toModel.unpack.isNaN
  rw [unpack_neg]
  cases x.toModel.unpack <;> rfl

end MarkovLogic.Double
