/-
**Entries that are not finite.**

Main definitions:

* `firstNonFinite?` — the first entry that is not finite, with its index.
-/
import MarkovLogic.Scalar

set_option autoImplicit false

namespace MarkovLogic

variable {R : Type} [Scalar R]

/-- The first entry that is not finite, with its index counted from `start`. -/
def firstNonFiniteFrom? (start : Nat) : List R → Option (Nat × R)
  | [] => none
  | x :: xs => if Scalar.isFinite x then firstNonFiniteFrom? (start + 1) xs else some (start, x)

/-- The first entry that is not finite, with its index. -/
def firstNonFinite? (xs : List R) : Option (Nat × R) := firstNonFiniteFrom? 0 xs

theorem firstNonFiniteFrom?_eq_none_iff (start : Nat) (xs : List R) :
    firstNonFiniteFrom? start xs = none ↔ ∀ x ∈ xs, Scalar.isFinite x = true := by
  induction xs generalizing start with
  | nil => simp [firstNonFiniteFrom?]
  | cons x xs ih =>
    by_cases h : Scalar.isFinite x <;> simp [firstNonFiniteFrom?, h, ih]

theorem firstNonFinite?_eq_none_iff (xs : List R) :
    firstNonFinite? xs = none ↔ ∀ x ∈ xs, Scalar.isFinite x = true :=
  firstNonFiniteFrom?_eq_none_iff 0 xs

theorem firstNonFiniteFrom?_eq_some_iff {start index : Nat} {xs : List R} {value : R} :
    firstNonFiniteFrom? start xs = some (index, value) ↔
      ∃ i, index = start + i ∧ xs[i]? = some value ∧ Scalar.isFinite value = false ∧
        ∀ j < i, ∀ x, xs[j]? = some x → Scalar.isFinite x = true := by
  induction xs generalizing start with
  | nil => simp [firstNonFiniteFrom?]
  | cons x xs ih =>
    rw [firstNonFiniteFrom?]
    by_cases h : Scalar.isFinite x = true
    · rw [if_pos h, ih]
      constructor
      · rintro ⟨i, rfl, hvalue, hinfinite, hearlier⟩
        refine ⟨i + 1, by omega, hvalue, hinfinite, fun j hj y hy => ?_⟩
        cases j with
        | zero => exact Option.some.inj hy ▸ h
        | succ j => exact hearlier j (by omega) y hy
      · rintro ⟨i, rfl, hvalue, hinfinite, hearlier⟩
        cases i with
        | zero => exact absurd (Option.some.inj hvalue ▸ h) (by simp [hinfinite])
        | succ i =>
          exact ⟨i, by omega, hvalue, hinfinite, fun j hj y hy => hearlier (j + 1) (by omega) y hy⟩
    · rw [if_neg h]
      constructor
      · intro heq
        cases heq
        exact ⟨0, rfl, rfl, by simpa using h, fun j hj => absurd hj (Nat.not_lt_zero j)⟩
      · rintro ⟨i, rfl, hvalue, hinfinite, hearlier⟩
        cases i with
        | zero => exact congrArg some (Prod.ext rfl (Option.some.inj hvalue))
        | succ i => exact absurd (hearlier 0 (Nat.succ_pos i) x rfl) h

/-- An entry is found if it is not finite and those in front of it are. -/
theorem firstNonFinite?_eq_some_iff {index : Nat} {xs : List R} {value : R} :
    firstNonFinite? xs = some (index, value) ↔
      xs[index]? = some value ∧ Scalar.isFinite value = false ∧
        ∀ j < index, ∀ x, xs[j]? = some x → Scalar.isFinite x = true := by
  simp [firstNonFinite?, firstNonFiniteFrom?_eq_some_iff]

end MarkovLogic
