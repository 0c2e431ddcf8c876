/-
**Successes of composed computations.**

A computation in parts succeeds if and only if every part does.  Proofs about what a success has
checked, read or prepared take it apart by these lemmas.

Main results:

* `bind_eq_ok_iff`, `map_eq_ok_iff`, `mapError_eq_ok_iff` — **successes of composed computations**;
* `bind_eq_error_iff` — which part of a sequence has failed;
* `exists_ok_of_any` — a test that a success passes shows that there is one.
-/
set_option autoImplicit false

namespace MarkovLogic

variable {ε ε' α β : Type}

/-- **A sequence succeeds if and only if both of its parts do.** -/
theorem bind_eq_ok_iff {first : Except ε α} {next : α → Except ε β} {b : β} :
    first >>= next = .ok b ↔ ∃ a, first = .ok a ∧ next a = .ok b := by
  cases first <;> simp [bind, Except.bind]

/-- A sequence fails where the first of its parts fails. -/
theorem bind_eq_error_iff {first : Except ε α} {next : α → Except ε β} {error : ε} :
    first >>= next = .error error ↔
      first = .error error ∨ ∃ a, first = .ok a ∧ next a = .error error := by
  cases first <;> simp [bind, Except.bind]

theorem map_eq_ok_iff {first : Except ε α} {f : α → β} {b : β} :
    first.map f = .ok b ↔ ∃ a, first = .ok a ∧ f a = b := by
  cases first <;> simp [Except.map]

/-- Other words for the error do not touch a success. -/
theorem mapError_eq_ok_iff {first : Except ε α} {f : ε → ε'} {a : α} :
    first.mapError f = .ok a ↔ first = .ok a := by
  cases first with
  | error error => exact ⟨nofun, nofun⟩
  | ok b =>
      have hmapped : (Except.ok b : Except ε α).mapError f = .ok b := rfl
      rw [hmapped, Except.ok.injEq, Except.ok.injEq]

theorem toOption_eq_some_iff {first : Except ε α} {a : α} :
    first.toOption = some a ↔ first = .ok a := by
  cases first <;> simp [Except.toOption]

/-- A test that a success passes shows that there is one. -/
theorem exists_ok_of_any {first : Except ε α} {test : α → Bool}
    (h : first.toOption.any test = true) : ∃ a, first = .ok a ∧ test a = true := by
  obtain ⟨a, ha, htest⟩ := (Option.any_eq_true _ _).1 h
  exact ⟨a, toOption_eq_some_iff.1 ha, htest⟩

end MarkovLogic
