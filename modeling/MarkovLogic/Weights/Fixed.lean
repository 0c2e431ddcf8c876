/-
**Fixed weights.**

A table from formulas to the weights they keep, in ascending order of the formulas and with one
entry for each, so that two tables with the same entries are equal.

Main definitions:

* `FixedWeights` — the table;
* `FixedWeights.insert` — set the weight of a formula, which replaces an earlier one;
* `FixedWeights.find?` — the weight of a formula.
-/

set_option autoImplicit false

namespace MarkovLogic

variable {R : Type}

/-- Set the entry of a key in an ascending list. -/
def insertEntry (key : Nat) (weight : R) : List (Nat × R) → List (Nat × R)
  | [] => [(key, weight)]
  | (k, w) :: rest =>
    if key < k then (key, weight) :: (k, w) :: rest
    else if key = k then (key, weight) :: rest
    else (k, w) :: insertEntry key weight rest

theorem mem_insertEntry {key : Nat} {weight : R} {entry : Nat × R} {entries : List (Nat × R)}
    (h : entry ∈ insertEntry key weight entries) : entry = (key, weight) ∨ entry ∈ entries := by
  induction entries with
  | nil => simpa [insertEntry] using h
  | cons first rest ih =>
    obtain ⟨k, w⟩ := first
    simp only [insertEntry] at h
    split at h
    · simpa using h
    · split at h
      · rcases List.mem_cons.1 h with h | h
        · exact .inl h
        · exact .inr (List.mem_cons_of_mem _ h)
      · rcases List.mem_cons.1 h with h | h
        · exact .inr (h ▸ List.mem_cons_self)
        · exact (ih h).imp id (List.mem_cons_of_mem _)

theorem ascending_insertEntry (key : Nat) (weight : R) {entries : List (Nat × R)}
    (h : entries.Pairwise (·.1 < ·.1)) : (insertEntry key weight entries).Pairwise (·.1 < ·.1) := by
  induction entries with
  | nil => simp [insertEntry]
  | cons first rest ih =>
    obtain ⟨k, w⟩ := first
    obtain ⟨hfirst, hrest⟩ := List.pairwise_cons.1 h
    simp only [insertEntry]
    split
    · rename_i hlt
      refine List.pairwise_cons.2 ⟨fun e he => ?_, h⟩
      rcases List.mem_cons.1 he with rfl | he
      · exact hlt
      · exact Nat.lt_trans hlt (hfirst e he)
    · split
      · rename_i heq
        exact List.pairwise_cons.2 ⟨fun e he => heq ▸ hfirst e he, hrest⟩
      · refine List.pairwise_cons.2 ⟨fun e he => ?_, ih hrest⟩
        rcases mem_insertEntry he with rfl | he
        · show k < key
          omega
        · exact hfirst e he

/-- Formulas with the weights they keep. -/
structure FixedWeights (R : Type) where
  entries : List (Nat × R)
  ascending : entries.Pairwise (·.1 < ·.1)

namespace FixedWeights

@[ext] theorem ext {f g : FixedWeights R} (h : f.entries = g.entries) : f = g := by
  cases f; cases g; congr

/-- No weight is fixed. -/
def empty : FixedWeights R := ⟨[], .nil⟩

/-- Set the weight of a formula. -/
def insert (f : FixedWeights R) (formula : Nat) (weight : R) : FixedWeights R :=
  ⟨insertEntry formula weight f.entries, ascending_insertEntry formula weight f.ascending⟩

/-- The table of a list of entries, of which a later one replaces an earlier one. -/
def ofList (entries : List (Nat × R)) : FixedWeights R :=
  entries.foldl (fun f entry => f.insert entry.1 entry.2) empty

/-- The weight of a formula, if it is fixed. -/
def find? (f : FixedWeights R) (formula : Nat) : Option R := f.entries.lookup formula

/-- How many weights are fixed. -/
def size (f : FixedWeights R) : Nat := f.entries.length

/-- No weight is fixed. -/
def isEmpty (f : FixedWeights R) : Bool := f.entries.isEmpty

/-- The least formula of the table that is not below `n`. -/
def firstBeyond? (f : FixedWeights R) (n : Nat) : Option Nat :=
  (f.entries.find? fun entry => n ≤ entry.1).map (·.1)

end FixedWeights

end MarkovLogic
