/-
**Decimal numbers are read as the nearest double.**

The digits of a number may be many and its power of ten out of all proportion.  Without its leading
zeros a number of `k` digits has a size between `10 ^ (k - 1)` and `10 ^ k`, so numbers far out are
recognised by their length and power alone: they lie above the bound to infinity, or below half of
the least positive double.  The others are within the reach of scientific notation.

Main definitions:

* `Decimal.IsDigits` — a list of decimal digits.

Main results:

* `Decimal.ofDigits_lt`, `Decimal.le_ofDigits` — the size of a number by the count of its digits;
* `Decimal.nearest_spec` — **digits times a power of ten are read as the nearest double**.
-/
import MarkovLogic.Decimal.Reader
import MarkovLogic.Proofs.Scalar.Nearest

set_option autoImplicit false

namespace MarkovLogic.Decimal

/-! ### The number of a list of digits -/

/-- All are decimal digits. -/
def IsDigits (ds : List Char) : Prop := ∀ c ∈ ds, c.isDigit = true

theorem isDigits_iff {ds : List Char} : IsDigits ds ↔ ds.all Char.isDigit = true :=
  List.all_eq_true.symm

theorem IsDigits.append {ds es : List Char} (hds : IsDigits ds) (hes : IsDigits es) :
    IsDigits (ds ++ es) :=
  fun c hc => (List.mem_append.1 hc).elim (hds c) (hes c)

/-- The number of a list of digits is that of the library. -/
theorem ofDigits_eq (ds : List Char) : ofDigits ds = Nat.ofDigitChars 10 ds 0 := rfl

theorem ofDigits_append (ds es : List Char) :
    ofDigits (ds ++ es) = 10 ^ es.length * ofDigits ds + ofDigits es := by
  rw [ofDigits_eq, Nat.ofDigitChars_append, Nat.ofDigitChars_eq_ofDigitChars_zero]
  rfl

theorem ofDigits_cons (c : Char) (ds : List Char) :
    ofDigits (c :: ds) = 10 ^ ds.length * (c.toNat - '0'.toNat) + ofDigits ds := by
  rw [← List.singleton_append, ofDigits_append]
  simp [ofDigits]

/-- A number of `k` digits is below `10 ^ k`. -/
theorem ofDigits_lt {ds : List Char} (hds : IsDigits ds) : ofDigits ds < 10 ^ ds.length := by
  induction ds with
  | nil => exact Nat.one_pos
  | cons c ds ih =>
      have hrest := ih fun d hd => hds d (List.mem_cons_of_mem c hd)
      have hdigit := (Char.isDigit_iff_toNat.1 (hds c List.mem_cons_self)).2
      have hnine : c.toNat - '0'.toNat ≤ 9 := by
        have : '0'.toNat = 48 ∧ '9'.toNat = 57 := ⟨rfl, rfl⟩
        omega
      rw [ofDigits_cons, List.length_cons, pow_succ]
      have := Nat.mul_le_mul_left (10 ^ ds.length) hnine
      omega

/-- With a leading digit other than zero it is not below `10 ^ (k - 1)`. -/
theorem le_ofDigits {c : Char} (ds : List Char) (hc : c.isDigit = true) (hzero : c ≠ '0') :
    10 ^ ds.length ≤ ofDigits (c :: ds) := by
  have hdigit := (Char.isDigit_iff_toNat.1 hc).1
  have hne : c.toNat ≠ '0'.toNat := fun h => hzero (Char.toNat_inj.1 h)
  have hone : 1 ≤ c.toNat - '0'.toNat := by
    have : '0'.toNat = 48 := rfl
    omega
  rw [ofDigits_cons]
  exact (Nat.le_mul_of_pos_right _ hone).trans (Nat.le_add_right _ _)

/-- Leading zeros add nothing. -/
theorem ofDigits_dropWhile_zero (ds : List Char) :
    ofDigits (ds.dropWhile fun c => c = '0') = ofDigits ds := by
  induction ds with
  | nil => rfl
  | cons c ds ih =>
      by_cases hc : c = '0'
      · subst hc
        rw [List.dropWhile_cons_of_pos (by simp), ih, ofDigits_cons, Nat.sub_self, Nat.mul_zero,
          Nat.zero_add]
      · rw [List.dropWhile_cons_of_neg (by simpa using hc)]

/-! ### Powers of ten and powers of two -/

theorem two_zpow_le_ten_zpow {k : ℤ} (hk : 0 ≤ k) : (2 : ℚ) ^ (3 * k) ≤ 10 ^ k := by
  rw [zpow_mul]
  exact zpow_le_zpow_left₀ hk (by norm_num) (by norm_num)

theorem ten_zpow_le_two_zpow {k : ℤ} (hk : k ≤ 0) : (10 : ℚ) ^ k ≤ 2 ^ (3 * k) := by
  have h := inv_anti₀ (by positivity) (two_zpow_le_ten_zpow (Int.neg_nonneg.2 hk))
  rwa [← zpow_neg, ← zpow_neg, Int.mul_neg, Int.neg_neg, Int.neg_neg] at h

/-! ### Reading -/

/-- A number without leading zeros is read as the nearest double. -/
theorem nearest_of_ne_zero {c : Char} {ds : List Char} (hds : IsDigits (c :: ds)) (hc : c ≠ '0')
    (power : ℤ) :
    Double.Nearest (ofDigits (c :: ds) * 10 ^ power) (nearest (c :: ds) power).toModel.unpack := by
  have hlower := le_ofDigits ds (hds c List.mem_cons_self) hc
  have hupper := ofDigits_lt hds
  have hlength : (c :: ds).length = ds.length + 1 := rfl
  have hsize : ((c :: ds).length : ℤ) = ds.length + 1 := by rw [hlength, Nat.cast_succ]
  rw [hlength] at hupper
  rw [nearest, List.dropWhile_cons_of_neg (by simpa using hc)]
  rw [hsize]
  generalize ofDigits (c :: ds) = n at hlower hupper
  have hlower' : ((10 ^ ds.length : ℕ) : ℚ) ≤ n := by exact_mod_cast hlower
  have hupper' : (n : ℚ) < (10 ^ (ds.length + 1) : ℕ) := by exact_mod_cast hupper
  by_cases hsmall : (ds.length : ℤ) + 1 + power < -400
  · -- the number is below half of the least positive double
    rw [if_pos (by simpa using hsmall)]
    refine Double.Nearest.zero (by positivity) ?_
    calc (n : ℚ) * 10 ^ power ≤ (10 ^ (ds.length + 1) : ℕ) * 10 ^ power := by gcongr
      _ = 10 ^ ((ds.length : ℤ) + 1 + power) := by
          rw [Nat.cast_pow, Nat.cast_ofNat, ← zpow_natCast, ← zpow_add₀ (by norm_num),
            Nat.cast_succ]
      _ ≤ 2 ^ (3 * ((ds.length : ℤ) + 1 + power)) := ten_zpow_le_two_zpow (by omega)
      _ ≤ 2 ^ (-1075 : ℤ) := zpow_le_zpow_right₀ one_le_two (by omega)
  rw [if_neg (by simpa using hsmall)]
  by_cases hlarge : 400 < (ds.length : ℤ) + 1 + power
  · -- the number is above the bound to infinity
    rw [if_pos hlarge]
    refine Double.Nearest.infinity ?_
    calc Double.overflowBound ≤ 2 ^ 1024 := sub_le_self _ (by positivity)
      _ = 2 ^ (1024 : ℤ) := (zpow_natCast 2 1024).symm
      _ ≤ 2 ^ (3 * ((ds.length : ℤ) + power)) := zpow_le_zpow_right₀ one_le_two (by omega)
      _ ≤ 10 ^ ((ds.length : ℤ) + power) := two_zpow_le_ten_zpow (by omega)
      _ = (10 ^ ds.length : ℕ) * 10 ^ power := by
          rw [zpow_add₀ (by norm_num), zpow_natCast, Nat.cast_pow, Nat.cast_ofNat]
      _ ≤ n * 10 ^ power := by gcongr
  · rw [if_neg hlarge]
    have hn : 0 < n := (Nat.pow_pos (by norm_num)).trans_le hlower
    have hbits : ds.length ≤ n.log2 :=
      (Nat.le_log2 hn.ne').2 ((Nat.pow_le_pow_left (by norm_num) ds.length).trans hlower)
    exact Double.nearest_ofScientific hn (by omega) (by omega)

/-- **Digits times a power of ten are read as the nearest double.** -/
theorem nearest_spec {ds : List Char} (hds : IsDigits ds) (power : ℤ) :
    Double.Nearest (ofDigits ds * 10 ^ power) (nearest ds power).toModel.unpack := by
  rw [← ofDigits_dropWhile_zero]
  cases hrest : ds.dropWhile fun c => c = '0' with
  | nil =>
      have hread : nearest ds power = 0 := by
        rw [nearest, hrest]
        rfl
      have hzero : ((ofDigits [] : ℕ) : ℚ) * 10 ^ power = 0 := by simp [ofDigits]
      rw [hread, hzero]
      exact Double.Nearest.zero le_rfl (by positivity)
  | cons c rest =>
      have hc : c ≠ '0' := fun h => by
        have := List.head?_dropWhile_not (fun c => decide (c = '0')) ds
        rw [hrest] at this
        simp [h] at this
      have hread : nearest ds power = nearest (c :: rest) power := by
        rw [nearest, nearest, hrest, List.dropWhile_cons_of_neg (by simpa using hc)]
      rw [hread]
      refine nearest_of_ne_zero (fun d hd => hds d ?_) hc power
      exact (List.dropWhile_sublist _).mem (hrest ▸ hd)

end MarkovLogic.Decimal
