/-
**The tables on which the likelihood can be evaluated.**

A table and the list of its training worlds are checked once, when the likelihood is made: there are
worlds, some were observed, these are in the table, and all counts are finite.  The checks are made
one after the other and look for the first that is wrong.  Here it is said of each flaw what was in
order before it was found, and what makes it the first of its kind; the counts are gone through
world by world.

Main definitions:

* `WorldTable.row` — the counts of one world;
* `Exhaustive.Admits` — a table in order;
* `Exhaustive.Flaw` — why a table is refused, with the error.

Main results:

* `WorldTable.firstNonFinite?_counts_eq_some_iff` — which count is found first;
* `Exhaustive.admits_or_flaw` — a table is in order or has a flaw;
* `Exhaustive.exists_make_iff`, `Exhaustive.make_eq_error_iff` — **a likelihood is made of every
  table in order, and any other is refused with the error of its flaw**;
* `Exhaustive.get_observed_eq_runningSum` — the observed counts as sums from left to right.
-/
import MarkovLogic.Likelihood.Exhaustive
import MarkovLogic.Proofs.Success
import Mathlib

set_option autoImplicit false

namespace MarkovLogic

variable {R : Type} {n : ℕ}

/-! ### Positions -/

/-- All indices of a list are below the bound, and are kept. -/
theorem positionsBelow_eq_ok_iff {bound : ℕ} {indices : List ℕ} {positions : List (Fin bound)} :
    positionsBelow bound indices = .ok positions ↔ positions.map Fin.val = indices := by
  induction indices generalizing positions with
  | nil =>
      constructor
      · intro h
        cases h
        rfl
      · intro h
        rw [List.map_eq_nil_iff.1 h]
        rfl
  | cons i rest ih =>
      rw [positionsBelow]
      by_cases hi : i < bound
      · rw [dif_pos hi, map_eq_ok_iff]
        constructor
        · rintro ⟨tail, htail, rfl⟩
          rw [List.map_cons, ih.1 htail]
        · intro h
          obtain ⟨p, tail, rfl, hp, htail⟩ := List.map_eq_cons_iff.1 h
          exact ⟨tail, ih.2 htail, congrArg (· :: tail) (Fin.ext hp.symm)⟩
      · rw [dif_neg hi]
        constructor
        · intro h
          cases h
        · intro h
          obtain ⟨p, tail, rfl, hp, -⟩ := List.map_eq_cons_iff.1 h
          exact absurd (hp ▸ p.isLt) hi

/-- Indices that are below the bound are positions. -/
theorem exists_positionsBelow {bound : ℕ} {indices : List ℕ} (h : ∀ i ∈ indices, i < bound) :
    ∃ positions : List (Fin bound), positionsBelow bound indices = .ok positions := by
  refine ⟨indices.pmap Fin.mk h, positionsBelow_eq_ok_iff.2 ?_⟩
  rw [List.map_pmap]
  exact List.pmap_eq_self.2 fun _ _ => rfl

/-- The first index that is not below the bound is the error. -/
theorem positionsBelow_eq_error {bound d : ℕ} {before after : List ℕ}
    (hbefore : ∀ i ∈ before, i < bound) (hd : bound ≤ d) :
    positionsBelow bound (before ++ d :: after) = .error d := by
  induction before with
  | nil => rw [List.nil_append, positionsBelow, dif_neg (not_lt.2 hd)]
  | cons i before ih =>
      obtain ⟨hi, hbefore⟩ := List.forall_mem_cons.1 hbefore
      rw [List.cons_append, positionsBelow, dif_pos hi, ih hbefore]
      rfl

/-- All indices of a list are below the bound, or there is a first that is not. -/
theorem all_below_or_first_not (bound : ℕ) (indices : List ℕ) :
    (∀ i ∈ indices, i < bound) ∨ ∃ before d after, indices = before ++ d :: after ∧
      (∀ i ∈ before, i < bound) ∧ bound ≤ d := by
  cases hfind : indices.find? (bound ≤ ·) with
  | none =>
      refine .inl fun i hi => ?_
      simpa using List.find?_eq_none.1 hfind i hi
  | some d =>
      obtain ⟨hd, before, after, heq, hbefore⟩ := List.find?_eq_some_iff_append.1 hfind
      refine .inr ⟨before, d, after, heq, fun i hi => ?_, by simpa using hd⟩
      simpa using hbefore i hi

/-! ### Counts -/

/-- Rows of the same length behind one another: entry `j` of row `x` is where it is expected. -/
theorem getElem?_flatMap_toList (rows : List (Vector R n)) (x : ℕ) {j : ℕ} (hj : j < n) :
    (rows.flatMap Vector.toList)[x * n + j]? = rows[x]?.bind (·[j]?) := by
  induction rows generalizing x with
  | nil => rfl
  | cons row rows ih =>
      rw [List.flatMap_cons]
      cases x with
      | zero => rw [Nat.zero_mul, Nat.zero_add, List.getElem?_append_left (by simpa using hj)]; simp
      | succ x =>
          have hlength : row.toList.length ≤ (x + 1) * n + j := by
            rw [Vector.length_toList, Nat.succ_mul]
            omega
          have hrest : (x + 1) * n + j - row.toList.length = x * n + j := by
            rw [Vector.length_toList, Nat.succ_mul]
            omega
          rw [List.getElem?_append_right hlength, hrest, ih]
          rfl

namespace WorldTable

variable (t : WorldTable R n)

/-- The counts of one world. -/
def row (x : Fin t.worlds.size) : Vector R n :=
  t.worlds[x]

/-- The counts are listed world by world. -/
theorem getElem?_counts (x : Fin t.worlds.size) (j : Fin n) :
    t.counts[(x : ℕ) * n + j]? = some ((t.row x).get j) := by
  rw [counts, getElem?_flatMap_toList _ _ j.isLt]
  simp [row, Vector.get_eq_getElem]

theorem length_counts : t.counts.length = t.worlds.size * n := by
  simp [counts, List.length_flatMap]

/-- Each place of the list is that of a world and a formula. -/
theorem exists_place {k : ℕ} (hk : k < t.counts.length) :
    ∃ (x : Fin t.worlds.size) (j : Fin n), k = (x : ℕ) * n + j := by
  rw [length_counts] at hk
  have hn : 0 < n := Nat.pos_of_ne_zero fun h => by simp [h] at hk
  have hx : k / n < t.worlds.size := Nat.div_lt_of_lt_mul (by rwa [Nat.mul_comm])
  exact ⟨⟨k / n, hx⟩, ⟨k % n, Nat.mod_lt k hn⟩, (Nat.div_add_mod' k n).symm⟩

/-- The places are in the order of the worlds, and in that of the formulas within a world. -/
theorem place_lt_place {x y : Fin t.worlds.size} {j k : Fin n} :
    (y : ℕ) * n + k < (x : ℕ) * n + j ↔ y < x ∨ y = x ∧ k < j := by
  rcases lt_trichotomy y x with hlt | rfl | hlt
  · have hrows : ((y : ℕ) + 1) * n ≤ (x : ℕ) * n := Nat.mul_le_mul_right n hlt
    rw [Nat.succ_mul] at hrows
    refine ⟨fun _ => .inl hlt, fun _ => ?_⟩
    omega
  · simp
  · have hrows : ((x : ℕ) + 1) * n ≤ (y : ℕ) * n := Nat.mul_le_mul_right n hlt
    rw [Nat.succ_mul] at hrows
    refine ⟨fun h => by omega, ?_⟩
    rintro (h | ⟨rfl, -⟩)
    · exact absurd h hlt.not_gt
    · exact absurd hlt (lt_irrefl y)

variable [Scalar R]

/-- All counts of the list are finite if those of the table are. -/
theorem firstNonFinite?_counts_eq_none_iff :
    firstNonFinite? t.counts = none ↔
      ∀ (x : Fin t.worlds.size) (j : Fin n), Scalar.isFinite ((t.row x).get j) = true := by
  rw [firstNonFinite?_eq_none_iff]
  constructor
  · intro h x j
    exact h _ (List.mem_of_getElem? (t.getElem?_counts x j))
  · intro h v hv
    obtain ⟨k, hk⟩ := List.getElem?_of_mem hv
    obtain ⟨x, j, rfl⟩ := t.exists_place (List.getElem?_eq_some_iff.1 hk).1
    rw [t.getElem?_counts] at hk
    exact Option.some.inj hk ▸ h x j

/-- The count found in the list is the first of the table that is not finite, world by world. -/
theorem firstNonFinite?_counts_eq_some_iff {k : ℕ} {v : R} :
    firstNonFinite? t.counts = some (k, v) ↔
      ∃ (x : Fin t.worlds.size) (j : Fin n), k = (x : ℕ) * n + j ∧ v = (t.row x).get j ∧
        Scalar.isFinite ((t.row x).get j) = false ∧
        ∀ y l, y < x ∨ y = x ∧ l < j → Scalar.isFinite ((t.row y).get l) = true := by
  rw [firstNonFinite?_eq_some_iff]
  constructor
  · rintro ⟨hk, hv, hearlier⟩
    obtain ⟨x, j, rfl⟩ := t.exists_place (List.getElem?_eq_some_iff.1 hk).1
    rw [t.getElem?_counts] at hk
    obtain rfl := Option.some.inj hk
    exact ⟨x, j, rfl, rfl, hv, fun y l hlt =>
      hearlier _ (t.place_lt_place.2 hlt) _ (t.getElem?_counts y l)⟩
  · rintro ⟨x, j, rfl, rfl, hv, hearlier⟩
    refine ⟨t.getElem?_counts x j, hv, fun k hk u hu => ?_⟩
    obtain ⟨y, l, rfl⟩ := t.exists_place (List.getElem?_eq_some_iff.1 hu).1
    rw [t.getElem?_counts] at hu
    exact Option.some.inj hu ▸ hearlier y l (t.place_lt_place.1 hk)

end WorldTable

/-! ### What is admitted -/

namespace Exhaustive

section Make

variable [Scalar R] {t : WorldTable R n} {training : List ℕ}

/-- There are worlds, some were observed, those observed are in the table, and all counts are
finite. -/
structure Admits (t : WorldTable R n) (training : List ℕ) : Prop where
  worlds : 0 < t.worlds.size
  observedSome : training ≠ []
  inTable : ∀ d ∈ training, d < t.worlds.size
  finite : ∀ (x : Fin t.worlds.size) (j : Fin n), Scalar.isFinite ((t.row x).get j) = true

variable [DecimalText R]

/-- Why a table with training worlds is refused, with the error. -/
inductive Flaw (t : WorldTable R n) (training : List ℕ) : LearningError R → Prop
  /-- There are no worlds. -/
  | noWorlds (none : t.worlds.size = 0) :
      Flaw t training (.invalidObjectiveData "0 worlds" "at least one world is required")
  /-- There are worlds, and none was observed. -/
  | noneObserved (worlds : 0 < t.worlds.size) (none : training = []) :
      Flaw t training
        (.invalidObjectiveData "0 databases" "at least one training world is required")
  /-- An observed world is not in the table, and it is the first. -/
  | notInTable {before after : List ℕ} {d : ℕ} (worlds : 0 < t.worlds.size)
      (list : training = before ++ d :: after) (inTable : ∀ i ∈ before, i < t.worlds.size)
      (beyond : t.worlds.size ≤ d) :
      Flaw t training
        (.invalidObjectiveData s!"training world {d}" "index outside the world set")
  /-- A count is not finite, and it is the first, world by world. -/
  | notFinite {x : Fin t.worlds.size} {j : Fin n} (observedSome : training ≠ [])
      (inTable : ∀ d ∈ training, d < t.worlds.size)
      (infinite : Scalar.isFinite ((t.row x).get j) = false)
      (earlier : ∀ y l, y < x ∨ y = x ∧ l < j → Scalar.isFinite ((t.row y).get l) = true) :
      Flaw t training
        (.invalidObjectiveData (DecimalText.decimal ((t.row x).get j)) "counts must be finite")

/-- **A table is in order or has a flaw.** -/
theorem admits_or_flaw (t : WorldTable R n) (training : List ℕ) :
    Admits t training ∨ ∃ error, Flaw t training error := by
  rcases Nat.eq_zero_or_pos t.worlds.size with hnone | hworlds
  · exact .inr ⟨_, .noWorlds hnone⟩
  by_cases hsome : training = []
  · exact .inr ⟨_, .noneObserved hworlds hsome⟩
  rcases all_below_or_first_not t.worlds.size training with
    hinside | ⟨before, d, after, hlist, hinside, hbeyond⟩
  · cases hfirst : firstNonFinite? t.counts with
    | none =>
        exact .inl ⟨hworlds, hsome, hinside, t.firstNonFinite?_counts_eq_none_iff.1 hfirst⟩
    | some entry =>
        obtain ⟨x, j, -, -, hinfinite, hearlier⟩ :=
          t.firstNonFinite?_counts_eq_some_iff.1 (show _ = some (entry.1, entry.2) from hfirst)
        exact .inr ⟨_, .notFinite hsome hinside hinfinite hearlier⟩
  · exact .inr ⟨_, .notInTable hworlds hlist hinside hbeyond⟩

/-- What was made has the table and the training worlds that it was made of. -/
theorem exists_of_make {e : Exhaustive R n} (h : make t training = .ok e) :
    ∃ positions observedSome finite, positions.map Fin.val = training ∧
      e = ⟨t, positions, observedSome, finite⟩ := by
  rw [make] at h
  split at h
  · cases h
  · split at h
    · cases h
    · split at h
      · cases h
      · rename_i positions hpositions
        split at h
        · cases h
        · cases h
          exact ⟨positions, _, _, positionsBelow_eq_ok_iff.1 hpositions, rfl⟩

/-- A likelihood is made of a table in order. -/
theorem exists_make (h : Admits t training) : ∃ e, make t training = .ok e := by
  obtain ⟨positions, hpositions⟩ := exists_positionsBelow h.inTable
  have hfinite := t.firstNonFinite?_counts_eq_none_iff.2 h.finite
  have hworlds : ¬t.worlds.isEmpty = true := by
    simpa [Nat.pos_iff_ne_zero] using h.worlds
  rw [make, if_neg hworlds, dif_neg h.observedSome]
  split
  · rename_i d hd
    cases hpositions.symm.trans hd
  · split
    · rename_i k v hv
      cases hfinite.symm.trans hv
    · exact ⟨_, rfl⟩

/-- A table with a flaw is refused, with the error of the flaw. -/
theorem make_of_flaw {error : LearningError R} (h : Flaw t training error) :
    make t training = .error error := by
  have hnotEmpty (worlds : 0 < t.worlds.size) : ¬t.worlds.isEmpty = true := by
    simpa [Nat.pos_iff_ne_zero] using worlds
  cases h with
  | noWorlds none => rw [make, if_pos (by simpa using none)]
  | noneObserved worlds none => rw [make, if_neg (hnotEmpty worlds), dif_pos none]
  | @notInTable before after d worlds list inTable beyond =>
      have hsome : training ≠ [] := by
        rw [list]
        exact List.append_ne_nil_of_right_ne_nil _ (List.cons_ne_nil d after)
      have herror : positionsBelow t.worlds.size training = .error d := by
        rw [list]
        exact positionsBelow_eq_error inTable beyond
      rw [make, if_neg (hnotEmpty worlds), dif_neg hsome]
      split
      · rename_i d' hd'
        cases herror.symm.trans hd'
        rfl
      · rename_i positions hpositions
        cases herror.symm.trans hpositions
  | @notFinite x j observedSome inTable infinite earlier =>
      have hfirst := t.firstNonFinite?_counts_eq_some_iff.2 ⟨x, j, rfl, rfl, infinite, earlier⟩
      rw [make, if_neg (hnotEmpty x.pos), dif_neg observedSome]
      split
      · rename_i d hd
        obtain ⟨positions, hpositions⟩ := exists_positionsBelow inTable
        cases hpositions.symm.trans hd
      · split
        · rename_i k v hv
          cases hfirst.symm.trans hv
          rfl
        · rename_i hnone
          cases hfirst.symm.trans hnone

/-- **A likelihood is made if and only if the table is in order.** -/
theorem exists_make_iff : (∃ e, make t training = .ok e) ↔ Admits t training := by
  refine ⟨?_, exists_make⟩
  rintro ⟨e, he⟩
  refine (admits_or_flaw t training).resolve_right ?_
  rintro ⟨error, hflaw⟩
  cases he.symm.trans (make_of_flaw hflaw)

/-- **A table is refused with an error if and only if the error is that of its flaw.** -/
theorem make_eq_error_iff {error : LearningError R} :
    make t training = .error error ↔ Flaw t training error := by
  refine ⟨fun h => ?_, make_of_flaw⟩
  rcases admits_or_flaw t training with hadmits | ⟨error', hflaw⟩
  · obtain ⟨e, he⟩ := exists_make hadmits
    cases he.symm.trans h
  · cases (make_of_flaw hflaw).symm.trans h
    exact hflaw

end Make

/-! ### What is observed -/

section Observed

variable [Scalar R] [Zero R] [Add R] (e : Exhaustive R n)

/-- The observed counts: the rows of the training worlds, each added on top of those before it. -/
theorem observed_eq_foldl :
    e.observed =
      e.training.foldl (fun sum d => Vector.zipWith (· + ·) sum (e.table.row d))
        (Vector.replicate n 0) :=
  rfl

/-- The observed counts added up one by one: entry by entry a sum from left to right. -/
theorem get_observed_eq_runningSum (j : Fin n) :
    e.observed.get j = runningSum (e.training.map fun d => (e.table.row d).get j) := by
  have hfold : ∀ (ds : List (Fin e.table.worlds.size)) (sum : Vector R n),
      (ds.foldl (fun sum d => Vector.zipWith (· + ·) sum (e.table.row d)) sum).get j =
        (ds.map fun d => (e.table.row d).get j).foldl (· + ·) (sum.get j) := by
    intro ds
    induction ds with
    | nil => simp
    | cons d ds ih =>
        intro sum
        rw [List.foldl_cons, ih]
        simp [Vector.get_eq_getElem]
  rw [observed_eq_foldl, hfold]
  simp [runningSum, Vector.get_eq_getElem]

end Observed

/-! ### Weights -/

/-- Weights of the right number are a vector. -/
theorem exists_toArray {w : Array R} (h : w.size = n) : ∃ v : Vector R n, w = v.toArray :=
  ⟨⟨w, h⟩, rfl⟩

section Weights

variable [Scalar R] [Zero R] [Add R] [Sub R] [Mul R] [ExpLog R] (e : Exhaustive R n)

/-- Weights of the right number are not refused. -/
theorem objective_value (w : Vector R n) : e.objective.value w.toArray = .ok (e.value w) := by
  simp [objective]

theorem objective_gradient (w : Vector R n) :
    e.objective.gradient w.toArray = .ok (e.gradient w).toArray := by
  simp [objective]

/-- Weights of another number are refused. -/
theorem objective_value_of_size {w : Array R} (h : w.size ≠ n) :
    e.objective.value w = .error (.pointLength n w.size) :=
  dif_neg h

theorem objective_gradient_of_size {w : Array R} (h : w.size ≠ n) :
    e.objective.gradient w = .error (.pointLength n w.size) :=
  dif_neg h

end Weights

end Exhaustive

end MarkovLogic
