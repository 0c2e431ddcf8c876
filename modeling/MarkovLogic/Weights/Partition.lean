/-
**Fixed and free weights.**

A partition says of each formula either the weight it keeps or that its weight is free.  A reduced
vector holds the free weights alone; expanding it puts the fixed ones back.

Main definitions:

* `fillSlots`, `freeEntries` — expansion and reduction on lists, slot by slot;
* `Partition`, `Partition.ofFixed` — the partition of `n` formulas by a table of fixed weights;
* `Partition.expand`, `Partition.reduce` — between reduced and full vectors;
* `Partition.expand?`, `Partition.reduce?` — the same for vectors of any length.
-/
import MarkovLogic.Error.Learning
import MarkovLogic.Weights.Fixed

set_option autoImplicit false

namespace MarkovLogic

variable {R : Type}

/-! ### Slots -/

/-- How many slots are free. -/
def freeSlots : List (Option R) → Nat
  | [] => 0
  | some _ :: slots => freeSlots slots
  | none :: slots => freeSlots slots + 1

/-- The full list: what a slot holds, or the next of the given entries if it is free. -/
def fillSlots : List (Option R) → List R → List R
  | some w :: slots, entries => w :: fillSlots slots entries
  | none :: slots, x :: entries => x :: fillSlots slots entries
  | _, _ => []

/-- The entries at the free slots. -/
def freeEntries : List (Option R) → List R → List R
  | some _ :: slots, _ :: entries => freeEntries slots entries
  | none :: slots, x :: entries => x :: freeEntries slots entries
  | _, _ => []

theorem length_fillSlots (slots : List (Option R)) (entries : List R)
    (h : entries.length = freeSlots slots) : (fillSlots slots entries).length = slots.length := by
  induction slots generalizing entries with
  | nil => simp [fillSlots]
  | cons slot slots ih =>
    cases slot with
    | some w => simp [fillSlots, ih entries h]
    | none =>
      cases entries with
      | nil => simp [freeSlots] at h
      | cons x entries =>
        simp only [freeSlots, List.length_cons, Nat.add_right_cancel_iff] at h
        simp [fillSlots, ih entries h]

theorem length_freeEntries (slots : List (Option R)) (entries : List R)
    (h : entries.length = slots.length) : (freeEntries slots entries).length = freeSlots slots := by
  induction slots generalizing entries with
  | nil => simp [freeEntries, freeSlots]
  | cons slot slots ih =>
    cases entries with
    | nil => simp at h
    | cons x entries =>
      simp only [List.length_cons, Nat.add_right_cancel_iff] at h
      cases slot <;> simp [freeEntries, freeSlots, ih entries h]

/-- Reducing undoes filling. -/
theorem freeEntries_fillSlots (slots : List (Option R)) (entries : List R)
    (h : entries.length = freeSlots slots) :
    freeEntries slots (fillSlots slots entries) = entries := by
  induction slots generalizing entries with
  | nil => cases entries with
    | nil => rfl
    | cons x entries => simp [freeSlots] at h
  | cons slot slots ih =>
    cases slot with
    | some w => simp [fillSlots, freeEntries, ih entries h]
    | none =>
      cases entries with
      | nil => simp [freeSlots] at h
      | cons x entries =>
        simp only [freeSlots, List.length_cons, Nat.add_right_cancel_iff] at h
        simp [fillSlots, freeEntries, ih entries h]

/-! ### Partitions -/

/-- For each of `n` formulas the weight it keeps, or nothing if its weight is free. -/
structure Partition (R : Type) (n : Nat) where
  slots : Vector (Option R) n

namespace Partition

variable {n : Nat}

/-- The partition of `n` formulas by a table, which must name none beyond them. -/
def ofFixed (n : Nat) (fixed : FixedWeights R) : Except (LearningError R) (Partition R n) :=
  match fixed.firstBeyond? n with
  | some index => .error (.fixedIndexOutOfRange index n)
  | none => .ok ⟨Vector.ofFn fun i => fixed.find? i⟩

/-- How many weights are free. -/
def freeCount (p : Partition R n) : Nat := freeSlots p.slots.toList

/-- The free formulas, in ascending order. -/
def freeIndices (p : Partition R n) : List Nat :=
  (p.slots.toList.zipIdx.filter fun slot => slot.1.isNone).map (·.2)

/-- The fixed formulas with their weights, in ascending order. -/
def fixedEntries (p : Partition R n) : List (Nat × R) :=
  p.slots.toList.zipIdx.filterMap fun slot => slot.1.map fun w => (slot.2, w)

/-- No weight is fixed. -/
def isIdentity (p : Partition R n) : Bool := p.slots.toList.all Option.isNone

theorem length_reduced (p : Partition R n) (reduced : Vector R p.freeCount) :
    reduced.toList.length = freeSlots p.slots.toList :=
  reduced.length_toList

/-- The full vector of a reduced one. -/
def expand (p : Partition R n) (reduced : Vector R p.freeCount) : Vector R n :=
  ⟨(fillSlots p.slots.toList reduced.toList).toArray, by
    rw [List.size_toArray, length_fillSlots _ _ (p.length_reduced reduced), Vector.length_toList]⟩

/-- The free weights of a full vector. -/
def reduce (p : Partition R n) (full : Vector R n) : Vector R p.freeCount :=
  ⟨(freeEntries p.slots.toList full.toList).toArray, by
    rw [List.size_toArray, length_freeEntries _ _ (by simp)]; rfl⟩

/-- Reducing undoes expanding. -/
theorem reduce_expand (p : Partition R n) (reduced : Vector R p.freeCount) :
    p.reduce (p.expand reduced) = reduced := by
  apply Vector.toList_inj.1
  simp only [reduce, expand, Vector.toList_mk]
  exact freeEntries_fillSlots _ _ (p.length_reduced reduced)

/-- The full vector of a reduced one, whose length is checked. -/
def expand? (p : Partition R n) (reduced : Array R) : Except (LearningError R) (Vector R n) :=
  if h : reduced.size = p.freeCount then .ok (p.expand ⟨reduced, h⟩)
  else .error (.lengthMismatch .reduced p.freeCount reduced.size)

/-- The free weights of a full vector, whose length is checked. -/
def reduce? (p : Partition R n) (full : Array R) :
    Except (LearningError R) (Vector R p.freeCount) :=
  if h : full.size = n then .ok (p.reduce ⟨full, h⟩)
  else .error (.lengthMismatch .full n full.size)

end Partition

end MarkovLogic
