/-
**Looking up fixed weights.**

A table of fixed weights is looked up by formula.  Setting an entry changes the answer for that
formula alone, so a table made from a list answers with the last entry of the list for a formula.
The table that a network derives has a weight for each formula of its list and for no other.

Main results:

* `FixedWeights.find?_insert`, `FixedWeights.find?_ofList` — looking up after setting entries;
* `FixedWeights.ext_find?` — tables with the same answers are equal;
* `Network.map_formula_fixFormulas` — the formulas are fixed in the order of the list;
* `Network.exists_find?_of_fixedWeights` — **every listed formula has a weight in the table**;
* `Network.exists_fixFormula_of_find?` — it is the one that is derived for the formula.
-/
import MarkovLogic.Network.Satisfaction
import Mathlib.Data.List.Sort

set_option autoImplicit false

namespace MarkovLogic

variable {R : Type}

/-! ### Setting entries -/

theorem lookup_cons_eq_ite (entry : Nat × R) (rest : List (Nat × R)) (i : Nat) :
    (entry :: rest).lookup i = if i = entry.1 then some entry.2 else rest.lookup i := by
  rw [List.lookup_cons]
  by_cases h : i = entry.1
  · rw [if_pos h, beq_iff_eq.2 h]
  · rw [if_neg h, beq_eq_false_iff_ne.2 h]

theorem lookup_insertEntry (key : Nat) (weight : R) (entries : List (Nat × R)) (i : Nat) :
    (insertEntry key weight entries).lookup i =
      if i = key then some weight else entries.lookup i := by
  induction entries with
  | nil => rw [insertEntry, lookup_cons_eq_ite]
  | cons first rest ih =>
      obtain ⟨k, w⟩ := first
      rw [insertEntry]
      split
      · rw [lookup_cons_eq_ite]
      · split
        · rename_i heq
          subst heq
          rw [lookup_cons_eq_ite, lookup_cons_eq_ite]
          split
          · rfl
          · rfl
        · rename_i hne
          rw [lookup_cons_eq_ite, lookup_cons_eq_ite, ih]
          by_cases hk : i = k
          · have hkey : i ≠ key := fun h => hne (h.symm.trans hk)
            rw [if_pos hk, if_neg hkey, if_pos hk]
          · rw [if_neg hk, if_neg hk]

namespace FixedWeights

@[simp] theorem find?_empty (i : Nat) : (empty : FixedWeights R).find? i = none := rfl

/-- Setting an entry changes the answer for its formula alone. -/
theorem find?_insert (f : FixedWeights R) (formula : Nat) (weight : R) (i : Nat) :
    (f.insert formula weight).find? i = if i = formula then some weight else f.find? i :=
  lookup_insertEntry formula weight f.entries i

/-- Entries set one after the other: the last one for a formula counts. -/
theorem find?_foldl_insert (entries : List (Nat × R)) (f : FixedWeights R) (i : Nat) :
    (entries.foldl (fun f entry => f.insert entry.1 entry.2) f).find? i =
      (entries.reverse.lookup i).or (f.find? i) := by
  induction entries generalizing f with
  | nil => simp
  | cons entry rest ih =>
      rw [List.foldl_cons, ih, find?_insert, List.reverse_cons, List.lookup_append,
        Option.or_assoc, lookup_cons_eq_ite]
      split
      · rw [Option.some_or]
      · rw [List.lookup_nil, Option.none_or]

/-- A table made from a list answers with the last entry of the list for a formula. -/
theorem find?_ofList (entries : List (Nat × R)) (i : Nat) :
    (ofList entries).find? i = entries.reverse.lookup i := by
  rw [ofList, find?_foldl_insert, find?_empty, Option.or_none]

/-- A formula has a weight in a table made from a list as soon as the list has an entry for it. -/
theorem exists_find?_ofList {entries : List (Nat × R)} {i : Nat}
    (h : i ∈ entries.map (·.1)) : ∃ weight, (ofList entries).find? i = some weight := by
  rw [find?_ofList]
  refine Option.ne_none_iff_exists'.1 fun hnone => ?_
  obtain ⟨entry, he, rfl⟩ := List.mem_map.1 h
  have hne := List.lookup_eq_none_iff.1 hnone entry (List.mem_reverse.2 he)
  simp at hne

/-- An answer of the table is an entry of it. -/
theorem mem_entries_of_find? {f : FixedWeights R} {i : Nat} {weight : R}
    (h : f.find? i = some weight) : (i, weight) ∈ f.entries := by
  obtain ⟨before, after, hentries, -⟩ := List.lookup_eq_some_iff.1 h
  rw [hentries]
  exact List.mem_append_right _ List.mem_cons_self

/-- In an ascending list each entry is found under its key. -/
theorem lookup_eq_some_of_mem {entries : List (Nat × R)} {i : Nat} {weight : R}
    (h : entries.Pairwise (·.1 < ·.1)) (hmem : (i, weight) ∈ entries) :
    entries.lookup i = some weight := by
  induction entries with
  | nil => cases hmem
  | cons entry rest ih =>
      obtain ⟨hfirst, hrest⟩ := List.pairwise_cons.1 h
      rw [lookup_cons_eq_ite]
      rcases List.mem_cons.1 hmem with rfl | hmem
      · exact if_pos rfl
      · have hlt : entry.1 < i := hfirst _ hmem
        rw [if_neg (Nat.ne_of_gt hlt), ih hrest hmem]

/-- The entries of the table are its answers. -/
theorem mem_entries_iff {f : FixedWeights R} {i : Nat} {weight : R} :
    (i, weight) ∈ f.entries ↔ f.find? i = some weight :=
  ⟨lookup_eq_some_of_mem f.ascending, mem_entries_of_find?⟩

/-- Ascending lists with the same entries are equal. -/
theorem entries_eq_of_mem_iff {entries entries' : List (Nat × R)}
    (h : entries.Pairwise (·.1 < ·.1)) (h' : entries'.Pairwise (·.1 < ·.1))
    (hmem : ∀ i weight, (i, weight) ∈ entries ↔ (i, weight) ∈ entries') : entries = entries' := by
  have : Std.Irrefl fun a b : Nat × R => a.1 < b.1 := ⟨fun a => Nat.lt_irrefl a.1⟩
  have : Std.Antisymm fun a b : Nat × R => a.1 < b.1 :=
    ⟨fun _ _ hab hba => absurd hab (Nat.lt_asymm hba)⟩
  exact h.eq_of_mem_iff h' fun entry => hmem entry.1 entry.2

/-- **Tables with the same answers are equal.** -/
theorem ext_find? {f g : FixedWeights R} (h : ∀ i, f.find? i = g.find? i) : f = g := by
  refine ext (entries_eq_of_mem_iff f.ascending g.ascending fun i weight => ?_)
  rw [mem_entries_iff, mem_entries_iff, h]

/-- The formula of an entry has a weight in the table. -/
theorem exists_find?_of_mem {f : FixedWeights R} {entry : Nat × R} (h : entry ∈ f.entries) :
    ∃ weight, f.find? entry.1 = some weight := by
  refine Option.ne_none_iff_exists'.1 fun hnone => ?_
  have hne := List.lookup_eq_none_iff.1 hnone entry h
  simp at hne

/-- A table made from a list has a weight for a formula only if the list has an entry for it. -/
theorem mem_of_find?_ofList {entries : List (Nat × R)} {i : Nat} {weight : R}
    (h : (ofList entries).find? i = some weight) : (i, weight) ∈ entries := by
  rw [find?_ofList] at h
  obtain ⟨before, after, hentries, -⟩ := List.lookup_eq_some_iff.1 h
  rw [← List.mem_reverse, hentries]
  exact List.mem_append_right _ List.mem_cons_self

/-- The first formula of the table that is not below `n` is the least such formula. -/
theorem least_of_firstBeyond? {f : FixedWeights R} {n i : Nat} (h : f.firstBeyond? n = some i) :
    n ≤ i ∧ (∃ weight, f.find? i = some weight) ∧
      ∀ j weight, f.find? j = some weight → n ≤ j → i ≤ j := by
  obtain ⟨entry, hentry, rfl⟩ := Option.map_eq_some_iff.1 h
  obtain ⟨hn, before, after, hentries, hbefore⟩ := List.find?_eq_some_iff_append.1 hentry
  have hmem : entry ∈ f.entries := hentries ▸ List.mem_append_right _ List.mem_cons_self
  refine ⟨of_decide_eq_true hn, exists_find?_of_mem hmem, fun j weight hj hnj => ?_⟩
  -- what stands in front of the entry is below `n`, and the table ascends behind it
  have hascending := f.ascending
  rw [hentries] at hascending
  have hafter := (List.pairwise_cons.1 (List.pairwise_append.1 hascending).2.1).1
  have hj := mem_entries_of_find? hj
  rw [hentries] at hj
  rcases List.mem_append.1 hj with hj | hj
  · exact absurd hnj (by simpa using hbefore _ hj)
  · rcases List.mem_cons.1 hj with rfl | hj
    · exact Nat.le_refl _
    · exact Nat.le_of_lt (hafter _ hj)

/-- If no formula of the table is beyond `n`, then each of them is below it. -/
theorem lt_of_firstBeyond? {f : FixedWeights R} {n i : Nat} {weight : R}
    (hn : f.firstBeyond? n = none) (h : f.find? i = some weight) : i < n := by
  have hfind : f.entries.find? (fun entry => n ≤ entry.1) = none := by
    simpa [firstBeyond?] using hn
  simpa using List.find?_eq_none.1 hfind _ (mem_entries_of_find? h)

/-- The formula that is found beyond `n` is the least of the table there. -/
theorem firstBeyond?_eq_some_iff {f : FixedWeights R} {n i : Nat} :
    f.firstBeyond? n = some i ↔
      n ≤ i ∧ (∃ weight, f.find? i = some weight) ∧
        ∀ j weight, f.find? j = some weight → n ≤ j → i ≤ j := by
  refine ⟨least_of_firstBeyond?, fun ⟨hi, ⟨weight, hweight⟩, hleast⟩ => ?_⟩
  cases hb : f.firstBeyond? n with
  | none => exact absurd (lt_of_firstBeyond? hb hweight) (Nat.not_lt.2 hi)
  | some j =>
      obtain ⟨hj, ⟨weight', hweight'⟩, hleast'⟩ := least_of_firstBeyond? hb
      rw [Nat.le_antisymm (hleast' i weight hweight hi) (hleast j weight' hweight' hj)]

end FixedWeights

/-! ### The table of a network -/

namespace Network

variable [Zero R] [One R] [Add R] [Scalar R] [Div R] [ExpLog R]

/-- A formula is fixed under its own number. -/
theorem formula_of_fixFormula {net : Network R} {mode : EvidenceMode} {i : Nat}
    {fixed : FixedFormula R} (h : net.fixFormula mode i = .ok fixed) : fixed.formula = i := by
  unfold fixFormula at h
  cases hs : net.satisfaction mode i with
  | error error => rw [hs] at h; cases h
  | ok s =>
      rw [hs, Except.bind, weightFrom] at h
      dsimp only at h
      split at h
      · cases h
      · split at h
        · cases h
          rfl
        · cases h

/-- If none of them fails, the formulas of a list are fixed in its order. -/
theorem map_formula_fixFormulas {net : Network R} {mode : EvidenceMode} {list : List Nat}
    {formulas : List (FixedFormula R)} (h : net.fixFormulas mode list = (formulas, .ok ())) :
    formulas.map (·.formula) = list := by
  induction list generalizing formulas with
  | nil =>
      cases h
      rfl
  | cons i rest ih =>
      rw [fixFormulas] at h
      cases hi : net.fixFormula mode i with
      | error error => rw [hi] at h; cases h
      | ok fixed =>
          rw [hi] at h
          cases hr : net.fixFormulas mode rest with
          | mk others result =>
              rw [hr] at h
              cases h
              rw [List.map_cons, formula_of_fixFormula hi, ih hr]

/-- A formula that was fixed was fixed from its own groundings. -/
theorem fixFormula_of_mem {net : Network R} {mode : EvidenceMode} {list : List Nat}
    {formulas : List (FixedFormula R)} (h : net.fixFormulas mode list = (formulas, .ok ()))
    {f : FixedFormula R} (hf : f ∈ formulas) : net.fixFormula mode f.formula = .ok f := by
  induction list generalizing formulas with
  | nil =>
      cases h
      cases hf
  | cons i rest ih =>
      rw [fixFormulas] at h
      cases hi : net.fixFormula mode i with
      | error error => rw [hi] at h; cases h
      | ok fixed =>
          rw [hi] at h
          cases hr : net.fixFormulas mode rest with
          | mk others result =>
              rw [hr] at h
              cases h
              rcases List.mem_cons.1 hf with rfl | hf
              · rwa [formula_of_fixFormula hi]
              · exact ih hr hf

/-- The derived table is made from the formulas of the network's list, in its order. -/
theorem exists_fixedTable {net : Network R} {mode : EvidenceMode} {fixed : FixedWeights R}
    (h : net.fixedWeights mode = .ok fixed) :
    ∃ formulas : List (FixedFormula R),
      net.fixFormulas mode net.fixedFormulas = (formulas, .ok ()) ∧
        fixed = fixedTable formulas := by
  unfold fixedWeights at h
  cases hf : net.fixFormulas mode net.fixedFormulas with
  | mk formulas result =>
      rw [hf] at h
      cases result with
      | error error => cases h
      | ok _ =>
          cases h
          exact ⟨formulas, rfl, rfl⟩

/-- **Every formula whose weight is to be fixed has a weight in the derived table.** -/
theorem exists_find?_of_fixedWeights {net : Network R} {mode : EvidenceMode}
    {fixed : FixedWeights R} (h : net.fixedWeights mode = .ok fixed) {i : Nat}
    (hi : i ∈ net.fixedFormulas) : ∃ weight, fixed.find? i = some weight := by
  obtain ⟨formulas, hformulas, rfl⟩ := exists_fixedTable h
  refine FixedWeights.exists_find?_ofList ?_
  rw [List.map_map]
  exact map_formula_fixFormulas hformulas ▸ hi

/-- The weight of the table is the one that is derived for the formula. -/
theorem exists_fixFormula_of_find? {net : Network R} {mode : EvidenceMode}
    {fixed : FixedWeights R} (h : net.fixedWeights mode = .ok fixed) {i : Nat} {weight : R}
    (hi : fixed.find? i = some weight) :
    ∃ f, net.fixFormula mode i = .ok f ∧ f.weight = weight := by
  obtain ⟨formulas, hformulas, rfl⟩ := exists_fixedTable h
  obtain ⟨f, hf, hentry⟩ := List.mem_map.1 (FixedWeights.mem_of_find?_ofList hi)
  obtain ⟨rfl, rfl⟩ := Prod.mk.inj hentry
  exact ⟨f, fixFormula_of_mem hformulas hf, rfl⟩

/-- No other formula has one. -/
theorem mem_fixedFormulas_of_find? {net : Network R} {mode : EvidenceMode}
    {fixed : FixedWeights R} (h : net.fixedWeights mode = .ok fixed) {i : Nat} {weight : R}
    (hi : fixed.find? i = some weight) : i ∈ net.fixedFormulas := by
  obtain ⟨formulas, hformulas, rfl⟩ := exists_fixedTable h
  obtain ⟨f, hf, hentry⟩ := List.mem_map.1 (FixedWeights.mem_of_find?_ofList hi)
  rw [← map_formula_fixFormulas hformulas]
  exact List.mem_map.2 ⟨f, hf, congrArg (·.1) hentry⟩

end Network

end MarkovLogic
