/-
**Sums in eight lanes.**

Where addition is associative and commutative, a sum in eight lanes is the sum.  Elsewhere it is at
least made of additions, so whatever additions keep, the sum keeps, and a mark that either summand
of an addition leaves on the result is left on the sum by each single term.

Main definitions:

* `Lanes.toList` — the lanes as a list;
* `Lanes.Keeps` — what additions keep, and the marks that their summands leave.

Main results:

* `runningSum_eq_sum`, `blockedSum_eq_sum` — **the order of a sum does not matter**;
* `Lanes.Keeps.blockedSum` — **what additions keep, the sum keeps**.
-/
import MarkovLogic.Scalar.Summation
import Mathlib

set_option autoImplicit false

namespace MarkovLogic

/-! ### Commutative addition -/

section Sums

variable {M : Type} [AddCommMonoid M]

/-- A sum from left to right on top of `a`. -/
theorem foldl_add_eq (a : M) (xs : List M) : xs.foldl (· + ·) a = a + xs.sum := by
  induction xs generalizing a with
  | nil => simp
  | cons x xs ih => rw [List.foldl_cons, ih, List.sum_cons, add_assoc]

theorem runningSum_eq_sum (xs : List M) : runningSum xs = xs.sum := by
  rw [runningSum, foldl_add_eq, zero_add]

/-- Eight running sums, whatever they hold, gather what is still to come. -/
theorem Lanes.sum_eq (s : Lanes M) (xs : List M) : s.sum xs = s.total + xs.sum := by
  fun_induction Lanes.sum s xs with
  | case1 s x0 x1 x2 x3 x4 x5 x6 x7 rest ih =>
      rw [ih]
      simp only [Lanes.total, List.sum_cons]
      abel
  | case2 s rest hshort => exact foldl_add_eq s.total rest

/-- **The sum in eight lanes is the sum.** -/
theorem blockedSum_eq_sum (xs : List M) : blockedSum xs = xs.sum := by
  rw [blockedSum, Lanes.sum_eq]
  simp [Lanes.zero, Lanes.total]

end Sums

/-! ### What additions keep -/

section Additions

variable {R : Type} [Zero R] [Add R]

namespace Lanes

/-- The lanes as a list. -/
def toList (s : Lanes R) : List R :=
  [s.lane0, s.lane1, s.lane2, s.lane3, s.lane4, s.lane5, s.lane6, s.lane7]

/-- A mark passes from the lanes to their total if it passes from pair to pair: from the lanes four
apart, and from what has been gathered and the next two. -/
theorem total_marked {M : R → Prop} (s : Lanes R)
    (pair0 : M s.lane0 ∨ M s.lane4 → M (s.lane0 + s.lane4))
    (pair1 : M s.lane1 ∨ M s.lane5 → M (s.lane1 + s.lane5))
    (pair2 : M s.lane2 ∨ M s.lane6 → M (s.lane2 + s.lane6))
    (pair3 : M s.lane3 ∨ M s.lane7 → M (s.lane3 + s.lane7))
    (first : M 0 ∨ M (s.lane0 + s.lane4) → M (0 + (s.lane0 + s.lane4)))
    (second : M (0 + (s.lane0 + s.lane4)) ∨ M (s.lane1 + s.lane5) →
      M (0 + (s.lane0 + s.lane4) + (s.lane1 + s.lane5)))
    (third : M (0 + (s.lane0 + s.lane4) + (s.lane1 + s.lane5)) ∨ M (s.lane2 + s.lane6) →
      M (0 + (s.lane0 + s.lane4) + (s.lane1 + s.lane5) + (s.lane2 + s.lane6)))
    (fourth : M (0 + (s.lane0 + s.lane4) + (s.lane1 + s.lane5) + (s.lane2 + s.lane6)) ∨
      M (s.lane3 + s.lane7) → M s.total) (h : ∃ x ∈ s.toList, M x) : M s.total := by
  simp only [toList, List.exists_mem_cons_iff, List.not_mem_nil, false_and, exists_false,
    or_false] at h
  grind only

/-- Terms that satisfy `T` keep `P` when they are added to lanes and `Q` when they are added to what
the lanes come to, and either summand leaves its mark `M`. -/
structure Keeps (T P Q M : R → Prop) : Prop where
  zero : P 0
  lane : ∀ x d, P x → T d → P (x + d) ∧ (M x ∨ M d → M (x + d))
  total : ∀ s : Lanes R, (∀ x ∈ s.toList, P x) → Q s.total ∧ ((∃ x ∈ s.toList, M x) → M s.total)
  tail : ∀ x d, Q x → T d → Q (x + d) ∧ (M x ∨ M d → M (x + d))

namespace Keeps

variable {T P Q M : R → Prop} (h : Keeps T P Q M)
include h

/-- Terms that follow one by one. -/
theorem foldl {xs : List R} (hxs : ∀ d ∈ xs, T d) {a : R} (ha : Q a) :
    Q (xs.foldl (· + ·) a) ∧ (M a ∨ (∃ d ∈ xs, M d) → M (xs.foldl (· + ·) a)) := by
  induction xs generalizing a with
  | nil => exact ⟨ha, fun hmark => by simpa using hmark⟩
  | cons x xs ih =>
      rw [List.forall_mem_cons] at hxs
      obtain ⟨hkept, hleft⟩ := h.tail a x ha hxs.1
      obtain ⟨hsum, hmarked⟩ := ih hxs.2 hkept
      refine ⟨hsum, fun hmark => hmarked ?_⟩
      rw [List.exists_mem_cons_iff, ← or_assoc] at hmark
      exact hmark.imp_left hleft

/-- Terms that are spread over the lanes. -/
theorem sum (s : Lanes R) {xs : List R} (hs : ∀ x ∈ s.toList, P x) (hxs : ∀ d ∈ xs, T d) :
    Q (s.sum xs) ∧ ((∃ x ∈ s.toList, M x) ∨ (∃ d ∈ xs, M d) → M (s.sum xs)) := by
  fun_induction Lanes.sum s xs with
  | case1 s x0 x1 x2 x3 x4 x5 x6 x7 rest ih =>
      simp only [toList, List.forall_mem_cons, List.exists_mem_cons_iff] at hs hxs ih ⊢
      obtain ⟨hs0, hs1, hs2, hs3, hs4, hs5, hs6, hs7, hnil⟩ := hs
      obtain ⟨hx0, hx1, hx2, hx3, hx4, hx5, hx6, hx7, hrest⟩ := hxs
      obtain ⟨kept0, left0⟩ := h.lane _ _ hs0 hx0
      obtain ⟨kept1, left1⟩ := h.lane _ _ hs1 hx1
      obtain ⟨kept2, left2⟩ := h.lane _ _ hs2 hx2
      obtain ⟨kept3, left3⟩ := h.lane _ _ hs3 hx3
      obtain ⟨kept4, left4⟩ := h.lane _ _ hs4 hx4
      obtain ⟨kept5, left5⟩ := h.lane _ _ hs5 hx5
      obtain ⟨kept6, left6⟩ := h.lane _ _ hs6 hx6
      obtain ⟨kept7, left7⟩ := h.lane _ _ hs7 hx7
      obtain ⟨hsum, hmarked⟩ :=
        ih ⟨kept0, kept1, kept2, kept3, kept4, kept5, kept6, kept7, hnil⟩ hrest
      refine ⟨hsum, fun hmark => hmarked ?_⟩
      grind only
  | case2 s rest hshort =>
      obtain ⟨hkept, hleft⟩ := h.total s hs
      obtain ⟨hsum, hmarked⟩ := h.foldl hxs hkept
      exact ⟨hsum, fun hmark => hmarked (hmark.imp_left hleft)⟩

/-- **What additions keep, the sum keeps**, and each term leaves its mark. -/
theorem blockedSum {xs : List R} (hxs : ∀ d ∈ xs, T d) :
    Q (blockedSum xs) ∧ ((∃ d ∈ xs, M d) → M (MarkovLogic.blockedSum xs)) := by
  obtain ⟨hsum, hmarked⟩ := h.sum Lanes.zero (by simp [toList, Lanes.zero, h.zero]) hxs
  exact ⟨hsum, fun hmark => hmarked (.inr hmark)⟩

end Keeps

end Lanes

end Additions

end MarkovLogic
