/-
**Long sums of doubles.**

One term that is not a number makes a sum no number, and a sum of terms from the unit interval is
finite, however many there are, and at least one if one of them is one.  For a lane that has grown
to `2 ^ 54` stops counting.

Main definitions:

* `Double.Within` — finite, not negative and at most a power of two.

Main results:

* `Double.isNaN_blockedSum` — **one term that is not a number makes the sum no number**;
* `Double.within_blockedSum` — **the sum of terms from the unit interval is finite**.
-/
import MarkovLogic.Proofs.Scalar.Lanes
import MarkovLogic.Proofs.Scalar.Signed

set_option autoImplicit false

namespace MarkovLogic.Double

/-! ### What is not a number -/

/-- In a sum of doubles each term that is not a number leaves its mark. -/
theorem keeps_isNaN : Lanes.Keeps (fun _ => True) (fun _ => True) (fun _ => True)
    (fun x : Float => x.isNaN = true) := by
  have hadd (x y : Float) : x.isNaN = true ∨ y.isNaN = true → (x + y).isNaN = true :=
    fun h => h.elim (isNaN_add_left · y) (isNaN_add_right x)
  refine ⟨trivial, fun x d _ _ => ⟨trivial, hadd x d⟩, fun s _ => ⟨trivial, fun hmark => ?_⟩,
    fun x d _ _ => ⟨trivial, hadd x d⟩⟩
  exact s.total_marked (hadd _ _) (hadd _ _) (hadd _ _) (hadd _ _) (hadd _ _) (hadd _ _) (hadd _ _)
    (hadd _ _) hmark

/-- **One term that is not a number makes the sum no number.** -/
theorem isNaN_blockedSum {xs : List Float} (h : ∃ x ∈ xs, x.isNaN = true) :
    (blockedSum xs).isNaN = true :=
  (keeps_isNaN.blockedSum fun _ _ => trivial).2 h

/-! ### The unit interval -/

/-- A double is finite, not negative and at most `2 ^ k`. -/
structure Within (k : ℕ) (x : Float) : Prop where
  finite : x.isFinite = true
  nonneg : 0 ≤ value x
  le_two_pow : value x ≤ 2 ^ k

theorem within_zero (k : ℕ) : Within k 0 :=
  ⟨rfl, value_zero.ge, by rw [value_zero]; positivity⟩

/-- Sums that have grown large stop counting, and none falls below one again. -/
theorem Within.add {i j k : ℕ} {x y : Float} (hx : Within i x) (hy : Within j y) (hk : 54 ≤ k)
    (hk' : k ≤ 64) (hle : (2 : ℚ) ^ i + 2 ^ j ≤ 2 ^ k + 1) :
    Within k (x + y) ∧ (1 ≤ value x ∨ 1 ≤ value y → 1 ≤ value (x + y)) := by
  have hbound : value x + value y ≤ 2 ^ k + 1 := (add_le_add hx.le_two_pow hy.le_two_pow).trans hle
  have hsmall : (2 : ℚ) ^ k + 1 < 2 ^ 1023 :=
    calc (2 : ℚ) ^ k + 1 ≤ 2 ^ 64 + 1 := by
          gcongr
          exact one_le_two
      _ < 2 ^ 65 := by norm_num
      _ ≤ 2 ^ 1023 := pow_le_pow_right₀ one_le_two (by norm_num)
  obtain ⟨hfinite, hrounds⟩ := value_add hx.finite hy.finite hx.nonneg hy.nonneg
    (hbound.trans_lt hsmall)
  refine ⟨⟨hfinite, hrounds.nonneg, hrounds.le_two_pow hk hbound⟩, fun hone => hrounds.one_le ?_⟩
  rcases hone with hone | hone
  · linarith [hy.nonneg]
  · linarith [hx.nonneg]

/-- Terms of the unit interval keep lanes and sum bounded, and one that is one shows. -/
theorem keeps_within : Lanes.Keeps (Within 0) (Within 54) (Within 58) (1 ≤ value ·) := by
  refine ⟨within_zero 54, fun x d hx hd => hx.add hd le_rfl (by norm_num) (by norm_num),
    fun s hs => ?_, fun x d hx hd => hx.add hd (by norm_num) (by norm_num) (by norm_num)⟩
  simp only [Lanes.toList, List.forall_mem_cons] at hs
  obtain ⟨hs0, hs1, hs2, hs3, hs4, hs5, hs6, hs7, -⟩ := hs
  -- the lanes four apart, and the pairs one after another
  obtain ⟨hpair0, left0⟩ : Within 55 _ ∧ _ := hs0.add hs4 (by norm_num) (by norm_num) (by norm_num)
  obtain ⟨hpair1, left1⟩ : Within 55 _ ∧ _ := hs1.add hs5 (by norm_num) (by norm_num) (by norm_num)
  obtain ⟨hpair2, left2⟩ : Within 55 _ ∧ _ := hs2.add hs6 (by norm_num) (by norm_num) (by norm_num)
  obtain ⟨hpair3, left3⟩ : Within 55 _ ∧ _ := hs3.add hs7 (by norm_num) (by norm_num) (by norm_num)
  obtain ⟨hfirst, left4⟩ : Within 55 _ ∧ _ :=
    (within_zero 0).add hpair0 (by norm_num) (by norm_num) (by norm_num)
  obtain ⟨hsecond, left5⟩ : Within 56 _ ∧ _ :=
    hfirst.add hpair1 (by norm_num) (by norm_num) (by norm_num)
  obtain ⟨hthird, left6⟩ : Within 57 _ ∧ _ :=
    hsecond.add hpair2 (by norm_num) (by norm_num) (by norm_num)
  obtain ⟨hfourth, left7⟩ : Within 58 _ ∧ _ :=
    hthird.add hpair3 (by norm_num) (by norm_num) (by norm_num)
  exact ⟨hfourth, s.total_marked left0 left1 left2 left3 left4 left5 left6 left7⟩

/-- **The sum of terms from the unit interval is finite**, however many there are, and at least one
if one of them is. -/
theorem within_blockedSum {xs : List Float} (hxs : ∀ x ∈ xs, Within 0 x) :
    Within 58 (blockedSum xs) ∧ ((∃ x ∈ xs, 1 ≤ value x) → 1 ≤ value (blockedSum xs)) :=
  keeps_within.blockedSum hxs

end MarkovLogic.Double
