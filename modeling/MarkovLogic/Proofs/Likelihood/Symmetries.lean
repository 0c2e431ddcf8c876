/-
**What the likelihood does not depend on.**

Over the reals the log-likelihood adds up the logarithms of the probabilities of the training
worlds.  A probability is a share, so it does not matter in which order the worlds are listed or the
training worlds are named, and a vector added to the counts of all worlds raises all scores alike
and does not show.

Two tables are compared by saying where each world of the one is found in the other, and by how much
its counts are more there; listing the worlds in another order and adding a vector are two cases of
this.

Main definitions:

* `WorldTable.reorder`, `WorldTable.raise` — the worlds in another order, and with a vector added;
* `WorldTable.Moved` — the worlds of a table found again in another.

Main results:

* `Exhaustive.value_eq_sum_log` — **the value as a sum of logarithms of probabilities**;
* `WorldTable.Moved.probability_place` — **a world that was moved keeps its probability**;
* `WorldTable.Moved.exists_make` — what is admitted is still admitted, with the same value;
* `Exhaustive.value_of_worlds` — **the textbook likelihood, and what it does not depend on**.
-/
import MarkovLogic.Proofs.Likelihood.Concave
import MarkovLogic.Proofs.Likelihood.Tables

set_option autoImplicit false

namespace MarkovLogic

variable {n : ℕ}

/-! ### Probabilities -/

namespace WorldTable

variable {t : WorldTable ℝ n}

/-- No world has more than all of the probability. -/
theorem probability_le_one (h : 0 < t.worlds.size) (w : Vector ℝ n) (x : Fin t.worlds.size) :
    t.probability w x ≤ 1 := by
  rw [← sum_probability h w]
  exact Finset.single_le_sum (fun y _ => probability_nonneg w y) (Finset.mem_univ x)

end WorldTable

namespace Exhaustive

variable (e : Exhaustive ℝ n)

/-- **The value as a sum of logarithms of probabilities.** -/
theorem value_eq_sum_log (w : Vector ℝ n) :
    e.value w = (e.training.map fun d => Real.log (e.table.probability w d)).sum := by
  rw [value_eq]
  refine congrArg List.sum (List.map_congr_left fun d _ => ?_)
  have hZ := WorldTable.normalizer_pos e.worlds_pos w
  rw [WorldTable.probability, Real.log_div (Real.exp_ne_zero _) hZ.ne', Real.log_exp]

/-- A logarithm of a probability is not positive. -/
theorem value_nonpos (w : Vector ℝ n) : e.value w ≤ 0 := by
  rw [value_eq_sum_log, ← smul_zero (e.training.map _).length]
  refine List.sum_le_card_nsmul _ 0 (List.forall_mem_map.2 fun d _ => ?_)
  exact Real.log_nonpos (WorldTable.probability_nonneg w d)
    (WorldTable.probability_le_one e.worlds_pos w d)

end Exhaustive

/-! ### Tables with the same worlds -/

namespace WorldTable

/-- The worlds in another order: at place `x` stands what stood at place `σ x`. -/
def reorder (t : WorldTable ℝ n) (σ : Equiv.Perm (Fin t.worlds.size)) : WorldTable ℝ n :=
  ⟨Array.ofFn fun x => t.worlds[σ x]⟩

/-- A vector added to the counts of each world. -/
def raise (t : WorldTable ℝ n) (c : Vector ℝ n) : WorldTable ℝ n :=
  ⟨t.worlds.map fun world => Vector.zipWith (· + ·) world c⟩

theorem size_reorder (t : WorldTable ℝ n) (σ : Equiv.Perm (Fin t.worlds.size)) :
    (t.reorder σ).worlds.size = t.worlds.size :=
  Array.size_ofFn

theorem size_raise (t : WorldTable ℝ n) (c : Vector ℝ n) :
    (t.raise c).worlds.size = t.worlds.size :=
  Array.size_map

theorem count_reorder (t : WorldTable ℝ n) (σ : Equiv.Perm (Fin t.worlds.size))
    (x : Fin t.worlds.size) (j : Fin n) :
    (t.reorder σ).count (x.cast (t.size_reorder σ).symm) j = t.count (σ x) j :=
  congrArg (fun world : Vector ℝ n => world.get j) (Array.getElem_ofFn _)

theorem count_raise (t : WorldTable ℝ n) (c : Vector ℝ n) (x : Fin t.worlds.size) (j : Fin n) :
    (t.raise c).count (x.cast (t.size_raise c).symm) j = t.count x j + c.get j := by
  have hrow : (t.raise c).worlds[x.cast (t.size_raise c).symm] =
      Vector.zipWith (· + ·) t.worlds[x] c := Array.getElem_map ..
  rw [count, hrow]
  simp [count, Vector.get_eq_getElem]

/-- The worlds of a table are found again in another, each with the same more in its counts. -/
structure Moved (t t' : WorldTable ℝ n) where
  place : Fin t.worlds.size ≃ Fin t'.worlds.size
  offset : Fin n → ℝ
  count_place : ∀ x j, t'.count (place x) j = t.count x j + offset j

variable {t t' : WorldTable ℝ n}

/-- A table is the same as itself. -/
def Moved.refl (t : WorldTable ℝ n) : Moved t t where
  place := Equiv.refl _
  offset _ := 0
  count_place x j := (add_zero (t.count x j)).symm

/-- In another order the worlds are found at the places that are sent to theirs. -/
def Moved.reorder (t : WorldTable ℝ n) (σ : Equiv.Perm (Fin t.worlds.size)) :
    Moved t (t.reorder σ) where
  place := σ.symm.trans (finCongr (t.size_reorder σ).symm)
  offset _ := 0
  count_place x j := by
    rw [add_zero, Equiv.trans_apply, finCongr_apply, count_reorder, σ.apply_symm_apply]

/-- If a vector is added, the worlds are found where they were. -/
def Moved.raise (t : WorldTable ℝ n) (c : Vector ℝ n) : Moved t (t.raise c) where
  place := finCongr (t.size_raise c).symm
  offset := c.get
  count_place := count_raise t c

namespace Moved

variable (h : Moved t t')

/-- All scores are raised alike. -/
theorem score_place (w : Vector ℝ n) (x : Fin t.worlds.size) :
    t'.score w (h.place x) = t.score w x + ∑ j, h.offset j * w.get j := by
  simp only [score, h.count_place, add_mul, Finset.sum_add_distrib]

/-- So the sum of their exponentials grows by a factor. -/
theorem normalizer_eq (w : Vector ℝ n) :
    t'.normalizer w = t.normalizer w * Real.exp (∑ j, h.offset j * w.get j) := by
  calc t'.normalizer w = ∑ x, Real.exp (t'.score w (h.place x)) :=
        (Equiv.sum_comp h.place fun x => Real.exp (t'.score w x)).symm
    _ = ∑ x, Real.exp (t.score w x) * Real.exp (∑ j, h.offset j * w.get j) := by
        simp only [h.score_place, Real.exp_add]
    _ = t.normalizer w * Real.exp (∑ j, h.offset j * w.get j) := by
        rw [normalizer, Finset.sum_mul]

/-- **A world that was moved keeps its probability.** -/
theorem probability_place (w : Vector ℝ n) (x : Fin t.worlds.size) :
    t'.probability w (h.place x) = t.probability w x := by
  rw [probability, h.score_place, h.normalizer_eq, Real.exp_add]
  exact mul_div_mul_right _ _ (Real.exp_ne_zero _)

end Moved

end WorldTable

open WorldTable

/-- If the training worlds are named where they are found, in whatever order, the value is the
same. -/
theorem WorldTable.Moved.value_eq {e e' : Exhaustive ℝ n} (h : Moved e.table e'.table)
    (hperm : e'.training.Perm (e.training.map h.place)) (w : Vector ℝ n) :
    e'.value w = e.value w := by
  calc e'.value w = (e'.training.map fun d => Real.log (e'.table.probability w d)).sum :=
        e'.value_eq_sum_log w
    _ = ((e.training.map h.place).map fun d => Real.log (e'.table.probability w d)).sum :=
        (hperm.map _).sum_eq
    _ = (e.training.map fun d => Real.log (e.table.probability w d)).sum := by
        simp only [List.map_map, Function.comp_def, h.probability_place]
    _ = e.value w := (e.value_eq_sum_log w).symm

/-- **What is admitted is still admitted, with the same value**, if its worlds are moved. -/
theorem WorldTable.Moved.exists_make [DecimalText ℝ] {e : Exhaustive ℝ n} {t' : WorldTable ℝ n}
    (h : Moved e.table t') {training' : List ℕ}
    (hperm : training'.Perm (e.training.map fun d => (h.place d : ℕ))) :
    ∃ e', Exhaustive.make t' training' = .ok e' ∧
      ∀ w, e'.objective.value w = e.objective.value w := by
  obtain ⟨x, -⟩ := List.exists_mem_of_ne_nil _ e.observedSome
  have hsome : training' ≠ [] := by
    rintro rfl
    exact e.observedSome (List.map_eq_nil_iff.1 (List.nil_perm.1 hperm))
  have hinside : ∀ d ∈ training', d < t'.worlds.size := by
    intro d hd
    obtain ⟨x, -, rfl⟩ := List.mem_map.1 (hperm.mem_iff.1 hd)
    exact (h.place x).isLt
  obtain ⟨e', he'⟩ := Exhaustive.exists_make ⟨(h.place x).pos, hsome, hinside, fun _ _ => rfl⟩
  refine ⟨e', he', fun w => ?_⟩
  obtain ⟨positions, _, _, hpositions, rfl⟩ := Exhaustive.exists_of_make he'
  by_cases hw : w.size = n
  · obtain ⟨w, rfl⟩ := Exhaustive.exists_toArray hw
    have hplaces : positions.Perm (e.training.map h.place) := by
      rw [← List.map_perm_map_iff Fin.val_injective, hpositions, List.map_map]
      exact hperm
    rw [Exhaustive.objective_value, Exhaustive.objective_value, h.value_eq hplaces]
  · rw [Exhaustive.objective_value_of_size _ hw, Exhaustive.objective_value_of_size _ hw]

namespace Exhaustive

/-- **The textbook likelihood, and what it does not depend on.**  The logarithm of a sum of
exponentials is what it is called.  The value of a table that is admitted is the sum, over the
training worlds, of the logarithms of their probabilities, and is not positive.  It stays the same
if the worlds are listed in another order and the training worlds named accordingly, if the training
worlds are named in another order, and if a vector is added to the counts of all worlds. -/
theorem value_of_worlds [DecimalText ℝ] :
    (∀ xs : List ℝ, xs ≠ [] → logSumExp xs = Real.log (xs.map Real.exp).sum) ∧
    ∀ (t : WorldTable ℝ n) (training : List ℕ) (e : Exhaustive ℝ n), make t training = .ok e →
      (∃ positions : List (Fin t.worlds.size), positions.map Fin.val = training ∧
        (∀ w : Vector ℝ n, e.objective.value w.toArray = .ok
          (positions.map fun d =>
            Real.log (Real.exp (t.score w d) / ∑ x, Real.exp (t.score w x))).sum) ∧
        ∀ σ : Equiv.Perm (Fin t.worlds.size),
          ∃ e', make (t.reorder σ) (positions.map fun d => (σ.symm d : ℕ)) = .ok e' ∧
            ∀ w, e'.objective.value w = e.objective.value w) ∧
      (∀ w v, e.objective.value w = .ok v → v ≤ 0) ∧
      (∀ training' : List ℕ, training'.Perm training →
        ∃ e', make t training' = .ok e' ∧ ∀ w, e'.objective.value w = e.objective.value w) ∧
      ∀ c : Vector ℝ n, ∃ e', make (t.raise c) training = .ok e' ∧
        ∀ w, e'.objective.value w = e.objective.value w := by
  refine ⟨fun xs => logSumExp_eq_log_sum, fun t training e he => ?_⟩
  obtain ⟨positions, observedSome, finite, rfl, rfl⟩ := exists_of_make he
  refine ⟨⟨positions, rfl, fun w => ?_, fun σ => ?_⟩, fun w v hv => ?_, fun training' hperm => ?_,
    fun c => ?_⟩
  · rw [objective_value, value_eq_sum_log]
    rfl
  · exact (Moved.reorder t σ).exists_make (.refl _)
  · by_cases hw : w.size = n
    · obtain ⟨w, rfl⟩ := exists_toArray hw
      rw [objective_value] at hv
      cases hv
      exact value_nonpos _ w
    · rw [objective_value_of_size _ hw] at hv
      cases hv
  · exact (Moved.refl t).exists_make hperm
  · exact (Moved.raise t c).exists_make (.refl _)

/-- With weight zero a coin shows each side with probability one half; and neither the order of the
sides, nor that of the throws, nor three more in both counts can be told from the value. -/
theorem value_of_worlds_coin :
    letI : DecimalText ℝ := ⟨fun _ => "a number"⟩
    let swap : Equiv.Perm (Fin 2) := Equiv.swap 0 1
    logSumExp [(0 : ℝ), 0] = Real.log 2 ∧ make coin.table [0, 1] = .ok coin ∧
      coin.objective.value #[0] = .ok (Real.log (1 / 2) + Real.log (1 / 2)) ∧
      (∀ v, coin.objective.value #[0] = .ok v → v ≤ 0) ∧
      (∃ e, make (coin.table.reorder swap) [1, 0] = .ok e ∧
        ∀ w, e.objective.value w = coin.objective.value w) ∧
      (∃ e, make coin.table [1, 0] = .ok e ∧
        ∀ w, e.objective.value w = coin.objective.value w) ∧
      ∃ e, make (coin.table.raise #v[3]) [0, 1] = .ok e ∧
        ∀ w, e.objective.value w = coin.objective.value w := by
  intro swap
  let : DecimalText ℝ := ⟨fun _ => "a number"⟩
  have hmake : make coin.table [0, 1] = .ok coin := rfl
  obtain ⟨hlog, h⟩ := value_of_worlds (n := 1)
  obtain ⟨⟨positions, hpositions, hvalue, hreorder⟩, hnonpos, hperm, hraise⟩ := h _ _ _ hmake
  have hsides : positions = ([0, 1] : List (Fin 2)) :=
    List.map_injective_iff.2 Fin.val_injective hpositions
  subst hsides
  have hscore : ∀ x, coin.table.score #v[0] x = 0 := fun x => by simp [WorldTable.score]
  have htwo : ∑ x, Real.exp (coin.table.score #v[0] x) = 2 := by
    have hcard : coin.table.worlds.size = 2 := rfl
    simp [hscore, hcard]
  have hhalf : ∀ d, Real.log (Real.exp (coin.table.score #v[0] d) /
      ∑ x, Real.exp (coin.table.score #v[0] x)) = Real.log (1 / 2) := fun d => by
    rw [hscore, htwo, Real.exp_zero]
  refine ⟨?_, hmake, ?_, hnonpos _, hreorder swap, hperm _ (.swap 0 1 []), hraise _⟩
  · rw [hlog _ (by simp)]
    norm_num
  · refine (hvalue #v[0]).trans (congrArg _ ?_)
    simp only [hhalf]
    change Real.log (1 / 2) + (Real.log (1 / 2) + 0) = Real.log (1 / 2) + Real.log (1 / 2)
    rw [add_zero]

end Exhaustive

end MarkovLogic
