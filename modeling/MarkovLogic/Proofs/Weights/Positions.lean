/-
**Where the free weights go.**

The `k`-th entry of a reduced vector belongs to the `k`-th free slot.  So to change an entry and
expand is to expand and change the entry at the position of its slot, and reducing reads the entries
at these positions.  Between two expanded vectors nothing differs anywhere else.

Main definitions:

* `freePosition`, `Partition.freePosition` — the position of the `k`-th free slot.

Main results:

* `Partition.get_reduce`, `Partition.expand_set` — **reducing and expanding, entry by entry**;
* `Partition.dot_sub_expand` — **an inner product with the difference of two expanded vectors**
  is one over the free weights.
-/
import MarkovLogic.Proofs.Scalar.Reals
import MarkovLogic.Proofs.Weights.Slots

set_option autoImplicit false

namespace MarkovLogic

variable {R : Type} {n : ℕ}

/-! ### Positions -/

/-- The position of the `k`-th free slot, counted from zero. -/
def freePosition : List (Option R) → ℕ → ℕ
  | some _ :: slots, k => freePosition slots k + 1
  | none :: slots, k + 1 => freePosition slots k + 1
  | _, _ => 0

theorem freePosition_lt {slots : List (Option R)} {k : ℕ} (h : k < freeSlots slots) :
    freePosition slots k < slots.length := by
  induction slots generalizing k with
  | nil => simp [freeSlots] at h
  | cons slot slots ih =>
      cases slot with
      | some w =>
          rw [freePosition, List.length_cons]
          exact Nat.succ_lt_succ (ih h)
      | none =>
          cases k with
          | zero => simp [freePosition]
          | succ k =>
              rw [freePosition, List.length_cons]
              exact Nat.succ_lt_succ (ih (Nat.lt_of_succ_lt_succ h))

/-- A further free slot stands further behind. -/
theorem freePosition_lt_freePosition {slots : List (Option R)} {j k : ℕ} (hjk : j < k)
    (h : k < freeSlots slots) : freePosition slots j < freePosition slots k := by
  induction slots generalizing j k with
  | nil => simp [freeSlots] at h
  | cons slot slots ih =>
      cases slot with
      | some w =>
          rw [freePosition, freePosition]
          exact Nat.succ_lt_succ (ih hjk h)
      | none =>
          cases k with
          | zero => exact absurd hjk (Nat.not_lt_zero j)
          | succ k =>
              cases j with
              | zero => exact Nat.succ_pos _
              | succ j =>
                  rw [freePosition, freePosition]
                  exact Nat.succ_lt_succ
                    (ih (Nat.lt_of_succ_lt_succ hjk) (Nat.lt_of_succ_lt_succ h))

/-- Every free slot has a number. -/
theorem exists_freePosition {slots : List (Option R)} {i : ℕ} (h : slots[i]? = some none) :
    ∃ k < freeSlots slots, freePosition slots k = i := by
  induction slots generalizing i with
  | nil => simp at h
  | cons slot slots ih =>
      cases i with
      | zero =>
          obtain rfl : slot = none := by simpa using h
          exact ⟨0, by simp [freeSlots], rfl⟩
      | succ i =>
          obtain ⟨k, hk, rfl⟩ := ih (by simpa using h)
          cases slot with
          | some w => exact ⟨k, hk, rfl⟩
          | none => exact ⟨k + 1, Nat.succ_lt_succ hk, rfl⟩

/-- Reducing reads the entries at the free positions. -/
theorem getElem?_freeEntries {slots : List (Option R)} {entries : List R} {k : ℕ}
    (hlen : entries.length = slots.length) (hk : k < freeSlots slots) :
    (freeEntries slots entries)[k]? = entries[freePosition slots k]? := by
  induction slots generalizing entries k with
  | nil => simp [freeSlots] at hk
  | cons slot slots ih =>
      cases entries with
      | nil => simp at hlen
      | cons x entries =>
          have hrest : entries.length = slots.length := by simpa using hlen
          cases slot with
          | some w =>
              rw [freeEntries, freePosition, List.getElem?_cons_succ]
              exact ih hrest hk
          | none =>
              cases k with
              | zero => simp [freeEntries, freePosition]
              | succ k =>
                  rw [freeEntries, freePosition, List.getElem?_cons_succ, List.getElem?_cons_succ]
                  exact ih hrest (Nat.lt_of_succ_lt_succ hk)

/-- To change an entry and fill the slots is to fill them and change the entry of the slot. -/
theorem fillSlots_set {slots : List (Option R)} {entries : List R} {k : ℕ} (x : R)
    (hlen : entries.length = freeSlots slots) (hk : k < freeSlots slots) :
    fillSlots slots (entries.set k x) = (fillSlots slots entries).set (freePosition slots k) x := by
  induction slots generalizing entries k with
  | nil => simp [freeSlots] at hk
  | cons slot slots ih =>
      cases slot with
      | some w =>
          rw [fillSlots, fillSlots, freePosition, List.set_cons_succ]
          exact congrArg _ (ih hlen hk)
      | none =>
          cases entries with
          | nil => simp [freeSlots] at hlen
          | cons y entries =>
              cases k with
              | zero => simp [fillSlots, freePosition]
              | succ k =>
                  rw [List.set_cons_succ, fillSlots, fillSlots, freePosition, List.set_cons_succ]
                  exact congrArg _ (ih (by simpa [freeSlots] using hlen)
                    (Nat.lt_of_succ_lt_succ hk))

namespace Partition

variable (p : Partition R n)

/-- The formula of the `k`-th free weight. -/
def freePosition (k : Fin p.freeCount) : Fin n :=
  ⟨MarkovLogic.freePosition p.slots.toList k,
    (freePosition_lt k.isLt).trans_eq p.slots.length_toList⟩

theorem freePosition_injective : Function.Injective p.freePosition := by
  intro j k h
  have hval : MarkovLogic.freePosition p.slots.toList j =
      MarkovLogic.freePosition p.slots.toList k := congrArg Fin.val h
  rcases Nat.lt_trichotomy j k with hjk | hjk | hjk
  · exact absurd hval (freePosition_lt_freePosition hjk k.isLt).ne
  · exact Fin.ext hjk
  · exact absurd hval.symm (freePosition_lt_freePosition hjk j.isLt).ne

/-- **Reducing, entry by entry.** -/
theorem get_reduce (full : Vector R n) (k : Fin p.freeCount) :
    (p.reduce full).get k = full.get (p.freePosition k) := by
  have hlen : full.toList.length = p.slots.toList.length := by simp
  have h : (p.reduce full)[(k : ℕ)]? = full[(p.freePosition k : ℕ)]? := by
    rw [← Vector.getElem?_toList, ← Vector.getElem?_toList]
    exact getElem?_freeEntries hlen k.isLt
  simpa [Vector.get_eq_getElem] using h

/-- **Expanding with one entry changed.** -/
theorem expand_set (reduced : Vector R p.freeCount) (k : Fin p.freeCount) (x : R) :
    p.expand (reduced.set k x k.isLt) =
      (p.expand reduced).set (p.freePosition k) x (p.freePosition k).isLt := by
  apply Vector.toList_inj.1
  rw [Vector.toList_set]
  simp only [expand, Vector.toList_mk, Vector.toList_set]
  exact fillSlots_set x (p.length_reduced reduced) k.isLt

/-- An expanded vector has the reduced entries at the free positions. -/
theorem get_expand_freePosition (reduced : Vector R p.freeCount) (k : Fin p.freeCount) :
    (p.expand reduced).get (p.freePosition k) = reduced.get k := by
  rw [← p.get_reduce, p.reduce_expand]

/-- An expanded vector holds the weight of every fixed slot. -/
theorem get_expand_of_slot (r : Vector R p.freeCount) {i : Fin n} {w : R}
    (hi : p.slots.get i = some w) : (p.expand r).get i = w := by
  have hslot : p.slots[(i : ℕ)]? = some (some w) := by
    simpa [Vector.get_eq_getElem] using hi
  simpa [Vector.get_eq_getElem] using p.getElem?_expand_of_slot r hslot

/-- Away from the free positions all expanded vectors agree. -/
theorem get_expand_of_notMem (r s : Vector R p.freeCount) {i : Fin n}
    (hi : i ∉ Set.range p.freePosition) : (p.expand r).get i = (p.expand s).get i := by
  cases hslot : p.slots.get i with
  | none =>
      have hfree : p.slots.toList[(i : ℕ)]? = some none := by
        simpa [Vector.get_eq_getElem] using hslot
      obtain ⟨k, hk, hik⟩ := exists_freePosition hfree
      exact absurd ⟨⟨k, hk⟩, Fin.ext hik⟩ hi
  | some w => rw [p.get_expand_of_slot r hslot, p.get_expand_of_slot s hslot]

/-- **An inner product with the difference of two expanded vectors** is one over the free
weights. -/
theorem dot_sub_expand {R : Type} [CommRing R] (p : Partition R n) (g : Vector R n)
    (r s : Vector R p.freeCount) :
    Arrow.dot g (Arrow.sub (p.expand s) (p.expand r)) =
      Arrow.dot (p.reduce g) (Arrow.sub s r) := by
  simp only [Arrow.dot_eq_sum, Arrow.get_sub]
  symm
  apply Fintype.sum_of_injective p.freePosition p.freePosition_injective
  · intro i hi
    rw [p.get_expand_of_notMem s r hi, sub_self, mul_zero]
  · intro k
    rw [p.get_reduce, p.get_expand_freePosition, p.get_expand_freePosition]

end Partition

end MarkovLogic
