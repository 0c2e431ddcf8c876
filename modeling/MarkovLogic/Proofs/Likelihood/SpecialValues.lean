/-
**The logarithm of a sum of exponentials at special values.**

At doubles that are undefined or infinite the formula leaves no choice: with one that is undefined
the result is undefined, else with the infinity it is infinite, else without anything but the
negative infinity it is that, and else it is finite.  Here the largest double is taken out of the
sum first, and what is undefined is passed over when it is looked for; and if it is not finite, it
is the result at once.  So something undefined shows if there is a finite double and no infinity,
and otherwise it gets lost.

Exponential and logarithm are not looked into; what is used of them is collected first.

Main definitions:

* `ExpLog.Regular` — what is used of exponential and logarithm;
* `IsPeak` — the largest number of a list, or nothing if there is no number;
* `FollowsFormula` — what the formula gives at special values.

Main results:

* `isPeak_peak?` — **what is found is the largest number**;
* `isNaN_logSumExp`, `isFinite_logSumExp` — the result if the largest number is finite;
* `logSumExp_special` — **the result at special values, and when it follows the formula**.
-/
import MarkovLogic.Likelihood.LogSumExp
import MarkovLogic.Proofs.Scalar.Summation

set_option autoImplicit false

namespace MarkovLogic

/-! ### Exponential and logarithm -/

/-- What is used of exponential and logarithm: numbers that are not positive have an exponential in
the unit interval, finite numbers from one on have a finite logarithm that is neither negative nor
greater than the number, and what is undefined stays so.  Without a bound on the logarithm its sum
with the largest number could overflow. -/
structure ExpLog.Regular [ExpLog Float] : Prop where
  exp_nonpos : ∀ x : Float, x ≤ 0 → 0 ≤ ExpLog.exp x ∧ ExpLog.exp x ≤ 1
  exp_zero : ExpLog.exp (0 : Float) = 1
  exp_isNaN : ∀ x : Float, x.isNaN = true → (ExpLog.exp x).isNaN = true
  log_one_le : ∀ x : Float, x.isFinite = true → 1 ≤ x →
    (ExpLog.log x).isFinite = true ∧ 0 ≤ ExpLog.log x ∧ ExpLog.log x ≤ x
  log_isNaN : ∀ x : Float, x.isNaN = true → (ExpLog.log x).isNaN = true

/-! ### The largest number -/

/-- The largest number of a list is in the list and no number of the list is greater; there is none
if the list has no numbers. -/
inductive IsPeak (xs : List Float) : Option Float → Prop
  | nothing (undefined : ∀ x ∈ xs, x.isNaN = true) : IsPeak xs none
  | largest {m : Float} (mem : m ∈ xs) (number : m.isNaN = false)
      (le : ∀ x ∈ xs, x.isNaN = false → x ≤ m) : IsPeak xs (some m)

namespace IsPeak

variable {xs : List Float} {x : Float} {peak : Option Float}

/-- Something undefined is passed over. -/
theorem pass (h : IsPeak xs peak) (hx : x.isNaN = true) :
    IsPeak (xs ++ [x]) (raisePeak peak x) := by
  have hkept : raisePeak peak x = peak := if_pos hx
  rw [hkept]
  cases h with
  | nothing undefined =>
      refine .nothing fun y hy => ?_
      rcases List.mem_append.1 hy with hy | hy
      · exact undefined y hy
      · exact List.mem_singleton.1 hy ▸ hx
  | largest mem number le =>
      refine .largest (List.mem_append_left _ mem) number fun y hy hyn => ?_
      rcases List.mem_append.1 hy with hy | hy
      · exact le y hy hyn
      · rw [List.mem_singleton.1 hy, hx] at hyn
        cases hyn

/-- With a further number the largest is kept or raised. -/
theorem raise (h : IsPeak xs peak) (hx : x.isNaN = false) :
    IsPeak (xs ++ [x]) (raisePeak peak x) := by
  have hnumber : ¬Scalar.isNaN x = true := Bool.eq_false_iff.1 hx
  have hself : x ∈ xs ++ [x] := List.mem_append_right _ (List.mem_singleton_self x)
  have hrefl : x ≤ x := Double.le_iff_rank_le.2 ⟨hx, hx, le_rfl⟩
  have hall {m : Float} (hle : ∀ y ∈ xs, y.isNaN = false → y ≤ m) (hxm : x ≤ m) :
      ∀ y ∈ xs ++ [x], y.isNaN = false → y ≤ m := by
    intro y hy hyn
    rcases List.mem_append.1 hy with hy | hy
    · exact hle y hy hyn
    · rwa [List.mem_singleton.1 hy]
  cases h with
  | nothing undefined =>
      have hfirst : raisePeak none x = some x := if_neg hnumber
      rw [hfirst]
      refine .largest hself hx (hall (fun y hy hyn => ?_) hrefl)
      rw [undefined y hy] at hyn
      cases hyn
  | @largest m mem number le =>
      have hraised : raisePeak (some m) x = some (if m < x then x else m) := by
        simp only [raisePeak, if_neg hnumber, Scalar.less, decide_eq_true_eq]
      rw [hraised]
      split
      · rename_i hlt
        refine .largest hself hx (hall (fun y hy hyn => ?_) hrefl)
        exact Double.le_trans (le y hy hyn) (Double.le_of_lt hlt)
      · rename_i hlt
        exact .largest (List.mem_append_left _ mem) number
          (hall le ((Double.not_lt_iff number hx).1 hlt))

end IsPeak

/-- **What is found is the largest number.** -/
theorem isPeak_peak? (xs : List Float) : IsPeak xs (peak? xs) := by
  induction xs using List.reverseRecOn with
  | nil => exact .nothing (by simp)
  | append_singleton xs x ih =>
      rw [peak?, List.foldl_append]
      cases hx : x.isNaN with
      | true => exact ih.pass hx
      | false => exact ih.raise hx

/-- A number that was found is in the list, and no number of the list is greater. -/
theorem largest_of_peak? {xs : List Float} {m : Float} (h : peak? xs = some m) :
    m ∈ xs ∧ m.isNaN = false ∧ ∀ x ∈ xs, x.isNaN = false → x ≤ m := by
  cases h ▸ isPeak_peak? xs with
  | largest mem number le => exact ⟨mem, number, le⟩

/-- If there is a number, a largest is found. -/
theorem exists_largest {xs : List Float} {x : Float} (hx : x ∈ xs) (hn : x.isNaN = false) :
    ∃ m, peak? xs = some m ∧ x ≤ m := by
  cases hxs : peak? xs with
  | none =>
      cases hxs ▸ isPeak_peak? xs with
      | nothing undefined =>
          rw [undefined x hx] at hn
          cases hn
  | some m => exact ⟨m, rfl, (largest_of_peak? hxs).2.2 x hx hn⟩

/-- If there is a finite double and no infinity, the largest number is finite. -/
theorem exists_finite_largest {xs : List Float} (h : (1.0 / 0.0 : Float) ∉ xs)
    (hsome : ∃ x ∈ xs, x.isFinite = true) : ∃ m, peak? xs = some m ∧ m.isFinite = true := by
  obtain ⟨x, hx, hfinite⟩ := hsome
  obtain ⟨m, hm, hle⟩ := exists_largest hx (Double.isNaN_of_isFinite hfinite)
  obtain ⟨hmem, hnumber, -⟩ := largest_of_peak? hm
  refine ⟨m, hm, ?_⟩
  by_contra hinfinite
  rcases Double.eq_infinity_of_not_finite hnumber (Bool.eq_false_iff.2 hinfinite) with rfl | rfl
  · exact h hmem
  · exact Double.not_le_negInf hfinite hle

/-! ### A finite largest number -/

section Regular

variable [ExpLog Float] {xs : List Float} {m : Float}

/-- A finite largest number is taken out of the sum. -/
theorem logSumExp_of_peak (hm : m.isFinite = true) (h : peak? xs = some m) :
    logSumExp xs = m + ExpLog.log (blockedSum (xs.map fun x => ExpLog.exp (x - m))) := by
  have hfinite : Scalar.isFinite m = true := hm
  simp only [logSumExp, h, hfinite, if_true]

/-- A largest number that is not finite is the result. -/
theorem logSumExp_of_peak_infinite (hm : m.isFinite = false) (h : peak? xs = some m) :
    logSumExp xs = m := by
  have hinfinite : ¬Scalar.isFinite m = true := Bool.eq_false_iff.1 hm
  simp only [logSumExp, h, if_neg hinfinite]

/-- **What is undefined shows** if the largest number is finite. -/
theorem isNaN_logSumExp (hregular : ExpLog.Regular) (hm : m.isFinite = true)
    (h : peak? xs = some m) (hnan : ∃ x ∈ xs, x.isNaN = true) : (logSumExp xs).isNaN = true := by
  let terms := xs.map fun x => ExpLog.exp (x - m)
  have hterm : ∃ d ∈ terms, d.isNaN = true := by
    obtain ⟨x, hx, hxn⟩ := hnan
    exact ⟨_, List.mem_map_of_mem hx, hregular.exp_isNaN _ (Double.isNaN_sub hxn m)⟩
  have hsum : (blockedSum terms).isNaN = true := Double.isNaN_blockedSum hterm
  rw [logSumExp_of_peak hm h]
  exact Double.isNaN_add_right m (hregular.log_isNaN _ hsum)

/-- The exponential of what is not positive is a number of the unit interval. -/
theorem ExpLog.Regular.within_exp (hregular : ExpLog.Regular) {x : Float} (hx : x ≤ 0) :
    Double.Within 0 (ExpLog.exp x) := by
  obtain ⟨hnonneg, hle⟩ := hregular.exp_nonpos x hx
  obtain ⟨hzero, hnumber, -⟩ := Double.le_iff_rank_le.1 hnonneg
  obtain ⟨-, hone, -⟩ := Double.le_iff_rank_le.1 hle
  obtain ⟨hfinite, hnonneg, hle⟩ := Double.value_mem_unitInterval hnumber
    ((Double.not_lt_iff hnumber hzero).2 hnonneg) ((Double.not_lt_iff hone hnumber).2 hle)
  exact ⟨hfinite, hnonneg, by rwa [pow_zero]⟩

/-- **Without anything undefined the result is finite** if the largest number is. -/
theorem isFinite_logSumExp (hregular : ExpLog.Regular) (hm : m.isFinite = true)
    (h : peak? xs = some m) (hnumbers : ∀ x ∈ xs, x.isNaN = false) :
    (logSumExp xs).isFinite = true := by
  obtain ⟨hmem, -, hle⟩ := largest_of_peak? h
  let terms := xs.map fun x => ExpLog.exp (x - m)
  have hterms : ∀ d ∈ terms, Double.Within 0 d := by
    refine List.forall_mem_map.2 fun x hx => hregular.within_exp ?_
    exact Double.sub_nonpos_of_le hm (hle x hx (hnumbers x hx))
  have hone : ∃ d ∈ terms, 1 ≤ Double.value d := by
    refine ⟨_, List.mem_map_of_mem hmem, ?_⟩
    rw [Double.sub_self_of_finite hm, hregular.exp_zero, Double.value_one]
  obtain ⟨hsum, hlower⟩ := Double.within_blockedSum hterms
  have hvalue : 1 ≤ Double.value (blockedSum terms) := hlower hone
  have hge : 1 ≤ blockedSum terms :=
    (Double.le_iff_value_le (by rfl) hsum.finite).2 (Double.value_one.trans_le hvalue)
  obtain ⟨hlog, hnonneg, hbelow⟩ := hregular.log_one_le _ hsum.finite hge
  have hnonneg := (Double.le_iff_value_le (by rfl) hlog).1 hnonneg
  have hbelow := (Double.le_iff_value_le hlog hsum.finite).1 hbelow
  rw [Double.value_zero] at hnonneg
  rw [logSumExp_of_peak hm h]
  refine Double.isFinite_add hm hlog ?_
  -- the logarithm is too small to carry the largest number over the bound
  obtain ⟨hlow, hhigh⟩ := abs_le.1 (Double.abs_value_le hm)
  have hhalf : (2 : ℚ) ^ 58 < 2 ^ 970 := pow_lt_pow_right₀ one_lt_two (by norm_num)
  have hbound := Double.greatest_add_half
  have hsmall := hsum.le_two_pow
  rw [← hbound]
  generalize (2 : ℚ) ^ 970 = half at *
  exact abs_lt.2 ⟨by linarith, by linarith⟩

end Regular

/-! ### Special values -/

section SpecialValues

variable [ExpLog Float] {xs : List Float}

/-- If an infinity is among them, it is the largest number and the result. -/
theorem logSumExp_of_infinity_mem (h : (1.0 / 0.0 : Float) ∈ xs) :
    logSumExp xs = 1.0 / 0.0 := by
  obtain ⟨m, hm, hle⟩ := exists_largest h rfl
  obtain ⟨-, hnumber, -⟩ := largest_of_peak? hm
  have hinfinite : m.isFinite = false :=
    Bool.eq_false_iff.2 fun hfinite => Double.not_infinity_le hfinite hle
  rw [logSumExp_of_peak_infinite hinfinite hm]
  refine (Double.eq_infinity_of_not_finite hnumber hinfinite).resolve_right fun hnegative => ?_
  rw [hnegative] at hle
  exact absurd hle (by decide)

/-- If there are neither finite doubles nor an infinity, the result is the negative infinity. -/
theorem logSumExp_of_none_finite (h : (1.0 / 0.0 : Float) ∉ xs)
    (hnone : ∀ x ∈ xs, x.isFinite = false) : logSumExp xs = -(1.0 / 0.0) := by
  cases hm : peak? xs with
  | none => simp only [logSumExp, hm, Scalar.bottom]
  | some m =>
      obtain ⟨hmem, hnumber, -⟩ := largest_of_peak? hm
      have hinfinite := hnone m hmem
      rw [logSumExp_of_peak_infinite hinfinite hm]
      refine (Double.eq_infinity_of_not_finite hnumber hinfinite).resolve_left fun hm => ?_
      exact h (hm ▸ hmem)

/-- What the formula gives at special values: undefined if something is undefined, else infinite if
something is infinite, else negatively infinite if there is nothing that is not, else finite. -/
structure FollowsFormula (xs : List Float) (r : Float) : Prop where
  undefined : (∃ x ∈ xs, x.isNaN = true) → r.isNaN = true
  infinite : (∀ x ∈ xs, x.isNaN = false) → (1.0 / 0.0 : Float) ∈ xs → r = 1.0 / 0.0
  empty : (∀ x ∈ xs, x = -(1.0 / 0.0)) → r = -(1.0 / 0.0)
  finite : (∀ x ∈ xs, x.isNaN = false) → (1.0 / 0.0 : Float) ∉ xs →
    (∃ x ∈ xs, x ≠ -(1.0 / 0.0)) → r.isFinite = true

/-- **The result at special values, and when it follows the formula.**  An infinity is the result
even if something is undefined; without an infinity and without anything finite the result is the
negative infinity, again even if something is undefined.  Otherwise the result is undefined if
something is and finite if nothing is.  So the formula is followed unless something is undefined
and there is an infinity or nothing finite. -/
theorem logSumExp_special (h : ExpLog.Regular) (xs : List Float) :
    ((1.0 / 0.0 : Float) ∈ xs → logSumExp xs = 1.0 / 0.0) ∧
    ((1.0 / 0.0 : Float) ∉ xs → (∀ x ∈ xs, x.isFinite = false) → logSumExp xs = -(1.0 / 0.0)) ∧
    ((1.0 / 0.0 : Float) ∉ xs → (∃ x ∈ xs, x.isFinite = true) →
      ((∃ x ∈ xs, x.isNaN = true) → (logSumExp xs).isNaN = true) ∧
        ((∀ x ∈ xs, x.isNaN = false) → (logSumExp xs).isFinite = true)) ∧
    (FollowsFormula xs (logSumExp xs) ↔
      ((∃ x ∈ xs, x.isNaN = true) →
        (1.0 / 0.0 : Float) ∉ xs ∧ ∃ x ∈ xs, x.isFinite = true)) := by
  have hnegative : (-(1.0 / 0.0) : Float) ≠ 1.0 / 0.0 := by decide
  refine ⟨logSumExp_of_infinity_mem, logSumExp_of_none_finite, fun hnot hsome => ?_,
    fun hfollows hnan => ?_, fun hshows => ⟨fun hnan => ?_, fun _ => logSumExp_of_infinity_mem,
      fun hall => ?_, fun hnumbers hnot hsome => ?_⟩⟩
  · obtain ⟨m, hm, hfinite⟩ := exists_finite_largest hnot hsome
    exact ⟨isNaN_logSumExp h hfinite hm, isFinite_logSumExp h hfinite hm⟩
  · have hundefined := hfollows.undefined hnan
    have hnot : (1.0 / 0.0 : Float) ∉ xs := fun hmem => by
      rw [logSumExp_of_infinity_mem hmem] at hundefined
      cases hundefined
    refine ⟨hnot, ?_⟩
    by_contra hnone
    have hnone : ∀ x ∈ xs, x.isFinite = false := fun x hx =>
      Bool.eq_false_iff.2 fun hfinite => hnone ⟨x, hx, hfinite⟩
    rw [logSumExp_of_none_finite hnot hnone] at hundefined
    cases hundefined
  · obtain ⟨hnot, hsome⟩ := hshows hnan
    obtain ⟨m, hm, hfinite⟩ := exists_finite_largest hnot hsome
    exact isNaN_logSumExp h hfinite hm hnan
  · refine logSumExp_of_none_finite (fun hmem => hnegative (hall _ hmem).symm) fun x hx => ?_
    rw [hall x hx]
    rfl
  · obtain ⟨x, hx, hne⟩ := hsome
    have hfinite : x.isFinite = true := by
      by_contra hinfinite
      rcases Double.eq_infinity_of_not_finite (hnumbers x hx) (Bool.eq_false_iff.2 hinfinite) with
        rfl | rfl
      · exact hnot hx
      · exact hne rfl
    obtain ⟨m, hm, hfinite⟩ := exists_finite_largest hnot ⟨x, hx, hfinite⟩
    exact isFinite_logSumExp h hfinite hm hnumbers

end SpecialValues

/-- An exponential that is right at zero and at the negative infinity, a logarithm that is right at
one, and both pass on what is undefined. -/
@[reducible] def coarseExpLog : ExpLog Float where
  exp x := if x.isNaN then x else if x < 0 then 0 else 1
  log x := if x.isNaN then x else 0

theorem regular_coarseExpLog : @ExpLog.Regular coarseExpLog := by
  let := coarseExpLog
  refine ⟨fun x hx => ?_, rfl, fun x hx => ?_, fun x hx hone => ?_, fun x hx => ?_⟩
  · have hnumber : ¬x.isNaN = true := Bool.eq_false_iff.1 (Double.le_iff_rank_le.1 hx).1
    have hexp : ExpLog.exp x = if x < 0 then 0 else 1 := if_neg hnumber
    rw [hexp]
    split <;> decide
  · have hexp : ExpLog.exp x = x := if_pos hx
    rwa [hexp]
  · have hnumber : ¬x.isNaN = true := Bool.eq_false_iff.1 (Double.isNaN_of_isFinite hx)
    have hlog : ExpLog.log x = 0 := if_neg hnumber
    have hzero : (0 : Float) ≤ 1 := by decide
    rw [hlog]
    exact ⟨rfl, by decide, Double.le_trans hzero hone⟩
  · have hlog : ExpLog.log x = x := if_pos hx
    rwa [hlog]

/-- Beside zero the negative infinity does no harm and what is undefined shows; beside an infinity,
or alone, it does not. -/
theorem logSumExp_special_coarse :
    letI := coarseExpLog
    (logSumExp [0, -(1.0 / 0.0)] : Float).isFinite = true ∧
      (logSumExp [0, 0 / 0] : Float).isNaN = true ∧
      logSumExp [0 / 0, -(1.0 / 0.0)] = (-(1.0 / 0.0) : Float) ∧
      logSumExp [0 / 0, 1.0 / 0.0] = (1.0 / 0.0 : Float) ∧
      ¬FollowsFormula [0 / 0] (logSumExp [0 / 0]) := by
  have special := @logSumExp_special coarseExpLog regular_coarseExpLog
  have hnot {x y : Float} (hx : 1.0 / 0.0 ≠ x) (hy : 1.0 / 0.0 ≠ y) : 1.0 / 0.0 ∉ [x, y] := by
    simp [hx, hy]
  refine ⟨?_, ?_, ?_, ?_, fun hfollows => ?_⟩
  · exact ((special _).2.2.1 (hnot (by decide) (by decide)) ⟨0, by simp, rfl⟩).2 (by decide)
  · exact ((special _).2.2.1 (hnot (by decide) (by decide)) ⟨0, by simp, rfl⟩).1
      ⟨0 / 0, by simp, rfl⟩
  · exact (special _).2.1 (hnot (by decide) (by decide)) (by decide)
  · exact (special _).1 (by simp)
  · obtain ⟨-, x, hx, hfinite⟩ := (special _).2.2.2.1 hfollows ⟨0 / 0, by simp, rfl⟩
    rw [List.mem_singleton.1 hx] at hfinite
    cases hfinite

/-- **So something undefined can get lost**, although exponential and logarithm pass it on. -/
theorem undefined_lost :
    ¬∀ [ExpLog Float], ExpLog.Regular → ∀ xs : List Float, FollowsFormula xs (logSumExp xs) := by
  intro h
  have hundefined := (@h coarseExpLog regular_coarseExpLog [0 / 0]).undefined ⟨0 / 0, by simp, rfl⟩
  cases hundefined

end MarkovLogic
