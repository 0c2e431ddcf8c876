/-
**Splitting weights and putting them together again.**

A partition by a table splits the formulas into fixed and free ones.  A vector over all formulas is
split by reading it at the free ones, and put together again by writing the fixed weights and then
the free ones, each at its place.  A formula that is free has the reduced entry whose number is the
number of free formulas below it.  Nothing here looks at the weights: they are of any type, so what
is said to be equal is the same down to the last bit.

Main definitions:

* `Partition.SplitBy` — the formulas are split into those of a table and the rest;
* `Partition.RecombinesBy` — vectors are split and put together by a table;
* `writeEntry`, `Partition.expandInLoops` — expansion entry by entry, with every index checked.

Main results:

* `Partition.freeIndices_eq_map` — the free formulas by number;
* `Partition.countP_freeIndices` — the number of a free formula is that of the free ones below it;
* `Partition.expandInLoops_eq`, `Partition.map_freeIndices_eq` — **the loops give the same vectors,
  and no index is out of range**;
* `Partition.split_and_recombine` — **how a partition by a table splits and recombines vectors**.
-/
import MarkovLogic.Proofs.Weights.Positions

set_option autoImplicit false

namespace MarkovLogic

variable {R : Type} {n : ℕ}

/-! ### Free formulas by number -/

/-- The positions of the free slots, counted from `start`. -/
theorem map_snd_filter_zipIdx (slots : List (Option R)) (start : ℕ) :
    ((slots.zipIdx start).filter fun slot => slot.1.isNone).map (·.2) =
      (List.range (freeSlots slots)).map fun k => freePosition slots k + start := by
  induction slots generalizing start with
  | nil => rfl
  | cons slot slots ih =>
      rw [List.zipIdx_cons]
      cases slot with
      | some w =>
          rw [List.filter_cons_of_neg (by simp), ih, freeSlots]
          refine List.map_congr_left fun k _ => ?_
          rw [freePosition]
          omega
      | none =>
          rw [List.filter_cons_of_pos (by simp), List.map_cons, ih, freeSlots,
            List.range_succ_eq_map, List.map_cons, List.map_map]
          congr 1
          · simp [freePosition]
          · refine List.map_congr_left fun k _ => ?_
            rw [Function.comp_apply, Nat.succ_eq_add_one, freePosition]
            omega

/-- In an ascending list as many entries are below an entry as stand in front of it. -/
theorem countP_lt_getElem {list : List ℕ} (h : list.Pairwise (· < ·)) {k : ℕ}
    (hk : k < list.length) : list.countP (· < list[k]) = k := by
  induction list generalizing k with
  | nil => simp at hk
  | cons a rest ih =>
      obtain ⟨hfirst, hrest⟩ := List.pairwise_cons.1 h
      cases k with
      | zero =>
          rw [List.getElem_cons_zero, List.countP_eq_zero]
          intro b hb
          rcases List.mem_cons.1 hb with rfl | hb
          · simp
          · simp [(hfirst b hb).le]
      | succ k =>
          have hk' : k < rest.length := Nat.lt_of_succ_lt_succ hk
          have hlt : a < rest[k] := hfirst _ (List.getElem_mem hk')
          rw [List.getElem_cons_succ, List.countP_cons, ih hrest hk', if_pos (by simpa using hlt)]

namespace Partition

/-- The free formulas are the positions of the free slots, by number. -/
theorem freeIndices_eq_map (p : Partition R n) :
    p.freeIndices =
      (List.range p.freeCount).map (MarkovLogic.freePosition p.slots.toList) := by
  rw [freeIndices, map_snd_filter_zipIdx]
  rfl

theorem length_freeIndices (p : Partition R n) : p.freeIndices.length = p.freeCount := by
  rw [freeIndices_eq_map, List.length_map, List.length_range]

/-- The free formulas ascend. -/
theorem ascending_freeIndices (p : Partition R n) : p.freeIndices.Pairwise (· < ·) := by
  rw [freeIndices_eq_map, List.pairwise_map]
  refine List.pairwise_lt_range.imp_of_mem fun {j k} _ hk hjk => ?_
  exact freePosition_lt_freePosition hjk (List.mem_range.1 hk)

theorem getElem?_freeIndices (p : Partition R n) (k : Fin p.freeCount) :
    p.freeIndices[(k : ℕ)]? = some (p.freePosition k : ℕ) := by
  rw [freeIndices_eq_map, List.getElem?_map, List.getElem?_range k.isLt]
  rfl

/-- A formula is free if its slot is. -/
theorem mem_freeIndices_iff (p : Partition R n) {i : ℕ} :
    i ∈ p.freeIndices ↔ p.slots[i]? = some none := by
  simp [freeIndices, List.mem_zipIdx_iff_getElem?]

/-- Every free formula has a number. -/
theorem exists_freePosition_of_mem (p : Partition R n) {i : ℕ} (h : i ∈ p.freeIndices) :
    ∃ k, (p.freePosition k : ℕ) = i := by
  rw [mem_freeIndices_iff, ← Vector.getElem?_toList] at h
  obtain ⟨k, hk, rfl⟩ := exists_freePosition h
  exact ⟨⟨k, hk⟩, rfl⟩

/-- **The number of a free formula is the number of free formulas below it.** -/
theorem countP_freeIndices (p : Partition R n) (k : Fin p.freeCount) :
    p.freeIndices.countP (· < (p.freePosition k : ℕ)) = k := by
  have hk : (k : ℕ) < p.freeIndices.length := k.isLt.trans_eq p.length_freeIndices.symm
  have hentry : p.freeIndices[(k : ℕ)] = (p.freePosition k : ℕ) :=
    Option.some.inj ((List.getElem?_eq_getElem hk).symm.trans (p.getElem?_freeIndices k))
  have hcount := countP_lt_getElem p.ascending_freeIndices hk
  rwa [hentry] at hcount

/-! ### Fixed formulas -/

/-- The weight of a slot is that of the table. -/
theorem join_slots_of_ofFixed {fixed : FixedWeights R} {p : Partition R n}
    (h : ofFixed n fixed = .ok p) (i : ℕ) : p.slots[i]?.join = fixed.find? i := by
  by_cases hi : i < n
  · rw [slots_of_ofFixed h hi, Option.join_some]
  · have hnone : fixed.find? i = none := by
      refine Option.eq_none_iff_forall_ne_some.2 fun weight hweight => hi ?_
      exact FixedWeights.lt_of_firstBeyond? (firstBeyond?_of_ofFixed h) hweight
    simp [hnone, hi]

/-- The fixed formulas ascend. -/
theorem ascending_fixedEntries (p : Partition R n) :
    p.fixedEntries.Pairwise (·.1 < ·.1) := by
  rw [fixedEntries, List.pairwise_filterMap]
  have hnumbered : p.slots.toList.zipIdx.Pairwise (·.2 < ·.2) := by
    rw [← List.pairwise_map, List.zipIdx_map_snd]
    exact List.pairwise_lt_range'
  refine hnumbered.imp fun {a b} hab => ?_
  simp only [Option.map_eq_some_iff]
  rintro _ ⟨v, -, rfl⟩ _ ⟨w, -, rfl⟩
  exact hab

/-- A formula is fixed at the weight of its slot. -/
theorem mem_fixedEntries_iff (p : Partition R n) {i : ℕ} {w : R} :
    (i, w) ∈ p.fixedEntries ↔ p.slots[i]? = some (some w) := by
  simp only [fixedEntries, List.mem_filterMap, List.mem_zipIdx_iff_getElem?,
    Vector.getElem?_toList, Option.map_eq_some_iff]
  constructor
  · rintro ⟨⟨slot, j⟩, hslot, v, rfl, hentry⟩
    cases hentry
    exact hslot
  · intro h
    exact ⟨(some w, i), h, w, rfl, rfl⟩

/-- The formulas are split into those of the table, each with its weight, and the rest. -/
structure SplitBy (p : Partition R n) (fixed : FixedWeights R) : Prop where
  fixedEntries : p.fixedEntries = fixed.entries
  below : ∀ i w, fixed.find? i = some w → i < n
  mem_freeIndices : ∀ i, i ∈ p.freeIndices ↔ i < n ∧ fixed.find? i = none
  ascending : p.freeIndices.Pairwise (· < ·)
  length : p.freeIndices.length = p.freeCount

/-- A partition by a table splits the formulas by it. -/
theorem splitBy_of_ofFixed {fixed : FixedWeights R} {p : Partition R n}
    (h : ofFixed n fixed = .ok p) : p.SplitBy fixed := by
  have hbelow : ∀ i w, fixed.find? i = some w → i < n :=
    fun i w => FixedWeights.lt_of_firstBeyond? (firstBeyond?_of_ofFixed h)
  have hslot (i : ℕ) (slot : Option R) :
      p.slots[i]? = some slot ↔ i < n ∧ fixed.find? i = slot := by
    by_cases hi : i < n
    · rw [slots_of_ofFixed h hi, Option.some.injEq, and_iff_right hi]
    · simp [hi]
  refine ⟨?_, hbelow, fun i => ?_, p.ascending_freeIndices, p.length_freeIndices⟩
  · refine FixedWeights.entries_eq_of_mem_iff p.ascending_fixedEntries fixed.ascending
      fun i w => ?_
    rw [mem_fixedEntries_iff, hslot, FixedWeights.mem_entries_iff]
    exact ⟨And.right, fun hw => ⟨hbelow i w hw, hw⟩⟩
  · rw [mem_freeIndices_iff, hslot]

/-! ### Entries of vectors -/

/-- **A free formula has the reduced entry of its number.** -/
theorem getElem?_expand_of_mem (p : Partition R n) (reduced : Vector R p.freeCount) {i : ℕ}
    (h : i ∈ p.freeIndices) :
    (p.expand reduced)[i]? = reduced[p.freeIndices.countP (· < i)]? := by
  obtain ⟨k, rfl⟩ := p.exists_freePosition_of_mem h
  rw [countP_freeIndices]
  simpa [Vector.get_eq_getElem] using p.get_expand_freePosition reduced k

/-- Reducing and expanding overwrites the fixed slots. -/
theorem getElem?_expand_reduce (p : Partition R n) (full : Vector R n) (i : ℕ) :
    (p.expand (p.reduce full))[i]? = (p.slots[i]?.join).or full[i]? := by
  cases hslot : p.slots[i]? with
  | none =>
      have hi : n ≤ i := by simpa using hslot
      simp [hi]
  | some slot =>
      cases slot with
      | some w => simpa using p.getElem?_expand_of_slot (p.reduce full) hslot
      | none =>
          obtain ⟨k, rfl⟩ := p.exists_freePosition_of_mem (p.mem_freeIndices_iff.2 hslot)
          have hget := p.get_expand_freePosition (p.reduce full) k
          rw [p.get_reduce] at hget
          simpa [Vector.get_eq_getElem] using hget

/-- Reading at the free formulas reduces a vector, and no index is out of range. -/
theorem map_freeIndices_eq (p : Partition R n) (full : Vector R n) :
    p.freeIndices.map (full[·]?) = (p.reduce full).toList.map some := by
  apply List.ext_getElem?
  intro k
  by_cases hk : k < p.freeCount
  · have hget := p.get_reduce full ⟨k, hk⟩
    rw [List.getElem?_map, p.getElem?_freeIndices ⟨k, hk⟩, List.getElem?_map,
      Vector.getElem?_toList]
    simp only [Vector.get_eq_getElem] at hget
    simp [hk, hget]
  · have hlength : p.freeIndices.length ≤ k := p.length_freeIndices.trans_le (not_lt.1 hk)
    simp [hlength, not_lt.1 hk]

end Partition

/-! ### Writing entry by entry -/

/-- Write an entry at its index, which has to be in range. -/
def writeEntry (full : Array R) (entry : ℕ × R) : Option (Array R) :=
  if h : entry.1 < full.size then some (full.set entry.1 entry.2) else none

/-- Entries with different indices in range are all written, and nothing else changes. -/
theorem exists_foldlM_writeEntry {entries : List (ℕ × R)} {full : Array R}
    (hrange : ∀ entry ∈ entries, entry.1 < full.size)
    (hdistinct : entries.Pairwise (·.1 ≠ ·.1)) :
    ∃ written, entries.foldlM writeEntry full = some written ∧ written.size = full.size ∧
      (∀ entry ∈ entries, written[entry.1]? = some entry.2) ∧
      ∀ i ∉ entries.map (·.1), written[i]? = full[i]? := by
  induction entries generalizing full with
  | nil => exact ⟨full, rfl, rfl, nofun, fun _ _ => rfl⟩
  | cons entry rest ih =>
      obtain ⟨hfirst, hrest⟩ := List.pairwise_cons.1 hdistinct
      obtain ⟨hentry, hrange⟩ := List.forall_mem_cons.1 hrange
      obtain ⟨written, hwritten, hsize, hhit, hmiss⟩ :=
        @ih (full.set entry.1 entry.2) (by simpa using hrange) hrest
      -- what is written first is not overwritten, because its index does not come again
      have hlater : entry.1 ∉ rest.map (·.1) := by
        intro hmem
        obtain ⟨other, hother, heq⟩ := List.mem_map.1 hmem
        exact hfirst other hother heq.symm
      refine ⟨written, ?_, by simpa using hsize, List.forall_mem_cons.2 ⟨?_, hhit⟩, ?_⟩
      · rw [List.foldlM_cons, writeEntry, dif_pos hentry]
        exact hwritten
      · rw [hmiss _ hlater]
        simp
      · intro i hi
        rw [List.map_cons, List.mem_cons, not_or] at hi
        rw [hmiss i hi.2, Array.getElem?_set_ne hentry (Ne.symm hi.1)]

namespace Partition

/-- Expansion entry by entry: a vector that holds anything, with the fixed weights written and then
the free ones. -/
def expandInLoops (p : Partition R n) (blank : R) (reduced : Array R) : Option (Array R) := do
  let full ← p.fixedEntries.foldlM writeEntry (Array.replicate n blank)
  (p.freeIndices.zip reduced.toList).foldlM writeEntry full

/-- **Expansion entry by entry gives the expanded vector**, and no index is out of range. -/
theorem expandInLoops_eq (p : Partition R n) (blank : R) (reduced : Vector R p.freeCount) :
    p.expandInLoops blank reduced.toArray = some (p.expand reduced).toArray := by
  have hzip : (p.freeIndices.zip reduced.toArray.toList).map (·.1) = p.freeIndices := by
    rw [← List.unzip_fst, List.unzip_zip_left]
    rw [p.length_freeIndices]
    simp
  have hslots {i : ℕ} {slot : Option R} (h : p.slots[i]? = some slot) : i < n := by
    simpa using (Vector.getElem?_eq_some_iff.1 h).1
  obtain ⟨full, hfull, hsize, hhit, -⟩ :=
    @exists_foldlM_writeEntry _ p.fixedEntries (Array.replicate n blank)
      (fun entry hentry => by simpa using hslots (p.mem_fixedEntries_iff.1 hentry))
      (p.ascending_fixedEntries.imp fun h => h.ne)
  obtain ⟨written, hwritten, hsize', hhit', hmiss'⟩ :=
    @exists_foldlM_writeEntry _ (p.freeIndices.zip reduced.toArray.toList) full
      (fun entry hentry => by
        have hmem : entry.1 ∈ p.freeIndices := (List.of_mem_zip hentry).1
        rw [hsize]
        simpa using hslots (p.mem_freeIndices_iff.1 hmem))
      (by
        rw [← List.pairwise_map, hzip]
        exact p.ascending_freeIndices.imp fun h => h.ne)
  have hall : written = (p.expand reduced).toArray := by
    apply Array.ext_getElem?
    intro i
    rw [Vector.getElem?_toArray]
    -- a place is written by the first loop if it is fixed, and by the second if it is free
    cases hslot : p.slots[i]? with
    | none =>
        have hi : n ≤ i := by simpa using hslot
        have hsmall : written.size ≤ i := by
          rw [hsize', hsize]
          simpa using hi
        simp [hsmall, hi]
    | some slot =>
        cases slot with
        | some w =>
            have hfixed : i ∉ p.freeIndices := by
              rw [mem_freeIndices_iff, hslot]
              simp
            rw [hmiss' i (by rwa [hzip]), hhit _ (p.mem_fixedEntries_iff.2 hslot),
              p.getElem?_expand_of_slot reduced hslot]
        | none =>
            obtain ⟨k, rfl⟩ := p.exists_freePosition_of_mem (p.mem_freeIndices_iff.2 hslot)
            have hmem : ((p.freePosition k : ℕ), reduced.get k) ∈
                p.freeIndices.zip reduced.toArray.toList := by
              refine List.mem_iff_getElem?.2 ⟨k, ?_⟩
              rw [List.getElem?_zip_eq_some]
              exact ⟨p.getElem?_freeIndices k, by simp [Vector.get_eq_getElem]⟩
            rw [hhit' _ hmem, ← p.get_expand_freePosition reduced k]
            simp [Vector.get_eq_getElem]
  rw [expandInLoops, hfull]
  exact hwritten.trans (congrArg some hall)

/-! ### Splitting and recombining -/

/-- Vectors are split and put together by the table: what fails, what stands where, what undoes
what, and that the loops give the same vectors. -/
structure RecombinesBy (p : Partition R n) (fixed : FixedWeights R) : Prop where
  expand?_eq_error : ∀ (array : Array R) (error : LearningError R),
    p.expand? array = .error error ↔
      array.size ≠ p.freeCount ∧ error = .lengthMismatch .reduced p.freeCount array.size
  reduce?_eq_error : ∀ (array : Array R) (error : LearningError R),
    p.reduce? array = .error error ↔
      array.size ≠ n ∧ error = .lengthMismatch .full n array.size
  expand?_eq_ok : ∀ reduced : Vector R p.freeCount,
    p.expand? reduced.toArray = .ok (p.expand reduced)
  reduce?_eq_ok : ∀ full : Vector R n, p.reduce? full.toArray = .ok (p.reduce full)
  /-- A fixed formula has the weight of the table. -/
  fixedEntry : ∀ (reduced : Vector R p.freeCount) (i : ℕ) (weight : R),
    fixed.find? i = some weight → (p.expand reduced)[i]? = some weight
  /-- A free formula has the reduced entry whose number is the number of free formulas below. -/
  freeEntry : ∀ (reduced : Vector R p.freeCount) (i : ℕ), i ∈ p.freeIndices →
    (p.expand reduced)[i]? = reduced[p.freeIndices.countP (· < i)]?
  reduce_expand : ∀ reduced : Vector R p.freeCount, p.reduce (p.expand reduced) = reduced
  /-- Reducing and expanding overwrites the fixed entries and nothing else. -/
  expand_reduce : ∀ (full : Vector R n) (i : ℕ),
    (p.expand (p.reduce full))[i]? = (fixed.find? i).or full[i]?
  expand_reduce_eq_self : ∀ full : Vector R n,
    p.expand (p.reduce full) = full ↔
      ∀ i weight, fixed.find? i = some weight → full[i]? = some weight
  idempotent : ∀ full : Vector R n,
    p.expand (p.reduce (p.expand (p.reduce full))) = p.expand (p.reduce full)
  /-- Writing the entries one by one over a vector of anything gives the expanded one. -/
  expandInLoops_eq : ∀ (blank : R) (reduced : Vector R p.freeCount),
    p.expandInLoops blank reduced.toArray = some (p.expand reduced).toArray
  /-- Reading the free entries one by one gives the reduced vector. -/
  map_freeIndices_eq : ∀ full : Vector R n,
    p.freeIndices.map (full[·]?) = (p.reduce full).toList.map some
  /-- With an empty table both ways hand back what they are given. -/
  unchanged : fixed.isEmpty = true →
    (∀ reduced : Vector R p.freeCount, (p.expand reduced).toArray = reduced.toArray) ∧
      ∀ full : Vector R n, (p.reduce full).toArray = full.toArray

theorem expand?_eq_error_iff (p : Partition R n) {array : Array R} {error : LearningError R} :
    p.expand? array = .error error ↔
      array.size ≠ p.freeCount ∧ error = .lengthMismatch .reduced p.freeCount array.size := by
  unfold expand?
  split
  · rename_i hsize
    exact ⟨nofun, fun h => absurd hsize h.1⟩
  · rename_i hsize
    rw [and_iff_right hsize, Except.error.injEq, eq_comm]

theorem reduce?_eq_error_iff (p : Partition R n) {array : Array R} {error : LearningError R} :
    p.reduce? array = .error error ↔
      array.size ≠ n ∧ error = .lengthMismatch .full n array.size := by
  unfold reduce?
  split
  · rename_i hsize
    exact ⟨nofun, fun h => absurd hsize h.1⟩
  · rename_i hsize
    rw [and_iff_right hsize, Except.error.injEq, eq_comm]

/-- A vector is kept by reducing and expanding if it carries the weights of the table. -/
theorem expand_reduce_eq_self_iff {fixed : FixedWeights R} {p : Partition R n}
    (h : ofFixed n fixed = .ok p) (full : Vector R n) :
    p.expand (p.reduce full) = full ↔
      ∀ i weight, fixed.find? i = some weight → full[i]? = some weight := by
  constructor
  · intro heq i weight hweight
    have hentry := p.getElem?_expand_reduce full i
    rwa [heq, join_slots_of_ofFixed h, hweight, Option.some_or] at hentry
  · intro hcarries
    apply Vector.toArray_inj.1
    apply Array.ext_getElem?
    intro i
    rw [Vector.getElem?_toArray, Vector.getElem?_toArray, getElem?_expand_reduce,
      join_slots_of_ofFixed h]
    cases hweight : fixed.find? i with
    | none => rw [Option.none_or]
    | some weight => rw [Option.some_or, hcarries i weight hweight]

/-- A partition by a table recombines vectors by it. -/
theorem recombinesBy_of_ofFixed {fixed : FixedWeights R} {p : Partition R n}
    (h : ofFixed n fixed = .ok p) : p.RecombinesBy fixed where
  expand?_eq_error _ _ := p.expand?_eq_error_iff
  reduce?_eq_error _ _ := p.reduce?_eq_error_iff
  expand?_eq_ok := p.expand?_toArray
  reduce?_eq_ok := p.reduce?_toArray
  fixedEntry reduced _ _ hweight := by
    rw [← Vector.getElem?_toArray]
    exact getElem?_expand h reduced hweight
  freeEntry reduced _ := p.getElem?_expand_of_mem reduced
  reduce_expand := p.reduce_expand
  expand_reduce full i := by rw [getElem?_expand_reduce, join_slots_of_ofFixed h]
  expand_reduce_eq_self := expand_reduce_eq_self_iff h
  idempotent full := by rw [p.reduce_expand]
  expandInLoops_eq := p.expandInLoops_eq
  map_freeIndices_eq := p.map_freeIndices_eq
  unchanged hempty := by
    obtain rfl : fixed = FixedWeights.empty := FixedWeights.ext (List.isEmpty_iff.1 hempty)
    have hidentity := isIdentity_of_ofFixed_empty h
    exact ⟨toArray_expand hidentity, toArray_reduce hidentity⟩

/-- **How a partition by a table splits and recombines vectors.**  There is no partition exactly if
the table has a formula beyond the others, and the least such is named.  Otherwise the free
formulas ascend and are those that the table leaves out, and the vectors over all formulas and over
the free ones are read and written where these formulas stand. -/
theorem split_and_recombine (n : ℕ) (fixed : FixedWeights R) :
    ((∃ error, (ofFixed n fixed : Except _ (Partition R n)) = .error error) ↔
        ∃ i weight, fixed.find? i = some weight ∧ n ≤ i) ∧
      (∀ error, (ofFixed n fixed : Except _ (Partition R n)) = .error error ↔
        ∃ i, (n ≤ i ∧ (∃ weight, fixed.find? i = some weight) ∧
            ∀ j weight, fixed.find? j = some weight → n ≤ j → i ≤ j) ∧
          error = .fixedIndexOutOfRange i n) ∧
      ∀ p, ofFixed n fixed = .ok p → p.SplitBy fixed ∧ p.RecombinesBy fixed := by
  refine ⟨⟨?_, ?_⟩, fun error => ?_, fun p hp =>
    ⟨splitBy_of_ofFixed hp, recombinesBy_of_ofFixed hp⟩⟩
  · rintro ⟨error, h⟩
    obtain ⟨i, hi, -⟩ := ofFixed_eq_error_iff.1 h
    obtain ⟨hbeyond, ⟨weight, hweight⟩, -⟩ := FixedWeights.firstBeyond?_eq_some_iff.1 hi
    exact ⟨i, weight, hweight, hbeyond⟩
  · rintro ⟨i, weight, hweight, hbeyond⟩
    cases hp : (ofFixed n fixed : Except _ (Partition R n)) with
    | error error => exact ⟨error, rfl⟩
    | ok p => exact absurd ((splitBy_of_ofFixed hp).below i weight hweight) (not_lt.2 hbeyond)
  · simp only [ofFixed_eq_error_iff, FixedWeights.firstBeyond?_eq_some_iff]

/-- A table with a weight that is not a number: it is kept in its place, and so is a negative zero
among the free weights. -/
theorem split_and_recombine_notANumber :
    let fixed : FixedWeights Float := .ofList [(2, -1), (0, 0 / 0)]
    let reduced : Vector Float 1 := #v[-0.0]
    ofFixed 2 fixed = .error (.fixedIndexOutOfRange 2 2) ∧
      ∃ p : Partition Float 3, ofFixed 3 fixed = .ok p ∧ p.freeIndices = [1] ∧
        ∃ h : p.freeCount = 1,
          (p.expand (reduced.cast h.symm))[0]? = some (0 / 0 : Float) ∧
          (p.expand (reduced.cast h.symm))[1]? = some (-0.0 : Float) ∧
          (p.expand (reduced.cast h.symm))[2]? = some (-1 : Float) ∧
          p.expandInLoops 0 reduced.toArray = some (p.expand (reduced.cast h.symm)).toArray ∧
          p.expand? #[] = .error (.lengthMismatch .reduced 1 0) := by
  intro fixed reduced
  have hbeyond := ((split_and_recombine 2 fixed).2.1 (.fixedIndexOutOfRange 2 2)).2
      ⟨2, ⟨le_rfl, ⟨-1, rfl⟩, fun _ _ _ h => h⟩, rfl⟩
  obtain ⟨hsplit, hrecombine⟩ :=
    (split_and_recombine 3 fixed).2.2 ⟨#v[some (0 / 0), none, some (-1)]⟩ rfl
  refine ⟨hbeyond, _, rfl, rfl, rfl, ?_, ?_, ?_, ?_, ?_⟩
  · exact hrecombine.fixedEntry _ 0 _ rfl
  · exact hrecombine.freeEntry _ 1 ((hsplit.mem_freeIndices 1).2 ⟨by decide, rfl⟩)
  · exact hrecombine.fixedEntry _ 2 _ rfl
  · exact hrecombine.expandInLoops_eq 0 reduced
  · exact (hrecombine.expand?_eq_error #[] _).2 ⟨by decide, rfl⟩

end Partition

end MarkovLogic
