/-
**Which flaw keeps the fixed weights from being derived.**

The formulas whose weight is to be fixed are taken in the order of the list, and the groundings of
each from left to right.  The first thing that goes wrong ends the derivation, and its error is the
error of the whole.  What may go wrong with one formula is said here without the scan: its
groundings cannot be listed; one of them cannot be read, after all before it were; there are none;
or nothing is satisfied.

Main definitions:

* `Holds`, `Fails` — a grounding with its degree, and one that does not count, with the error;
* `Network.Reads` — the degrees of the groundings of a formula;
* `Network.Derives`, `Network.Flaw` — the weight of a formula, and why it has none.

Main results:

* `Network.derives_or_flaw` — a formula has a weight or a flaw;
* `Network.fixFormulas_append` — formulas are fixed one after the other;
* `Network.derived_or_first_flaw` — **the fixed weights are derived unless there is a flaw, and the
  error is the one of the first flaw**.
-/
import MarkovLogic.Proofs.Scalar.Order
import MarkovLogic.Proofs.Success
import MarkovLogic.Proofs.Weights.Table
import MarkovLogic.Scalar.Summation

set_option autoImplicit false

namespace MarkovLogic

/-! ### One grounding -/

/-- The degrees that are accepted are those from zero to one.  What is not a number is none. -/
theorem inUnitInterval_iff {d : Float} : inUnitInterval d = true ↔ 0 ≤ d ∧ d ≤ 1 := by
  simp only [inUnitInterval, Scalar.isNaN, Scalar.less, Bool.and_eq_true, Bool.not_eq_true',
    decide_eq_false_iff_not]
  constructor
  · rintro ⟨⟨hd, hzero⟩, hone⟩
    exact ⟨(Double.not_lt_iff hd rfl).1 hzero, (Double.not_lt_iff rfl hd).1 hone⟩
  · rintro ⟨hzero, hone⟩
    have hd := (Double.le_iff_rank_le.1 hone).1
    exact ⟨⟨hd, (Double.not_lt_iff hd rfl).2 hzero⟩, (Double.not_lt_iff rfl hd).2 hone⟩

/-- The grounding is there, and what the evidence says of it is a degree from zero to one. -/
def Holds (mode : EvidenceMode) (g : Except NetworkError (GroundFormula Float)) (d : Float) :
    Prop :=
  ∃ f, g = .ok f ∧ f.degree mode = .ok d ∧ 0 ≤ d ∧ d ≤ 1

/-- Why a grounding of formula `i` has no degree, with the error. -/
inductive Fails (mode : EvidenceMode) (i : Nat) :
    Except NetworkError (GroundFormula Float) → LearningError Float → Prop
  /-- It could not be listed. -/
  | missing (e : NetworkError) : Fails mode i (.error e) (.network e)
  /-- The evidence cannot be looked up. -/
  | unknown {f : GroundFormula Float} {e : NetworkError} (failed : f.degree mode = .error e) :
      Fails mode i (.ok f) (.network e)
  /-- The degree is out of range. -/
  | outside {f : GroundFormula Float} {d : Float} (known : f.degree mode = .ok d)
      (outOfRange : ¬(0 ≤ d ∧ d ≤ 1)) : Fails mode i (.ok f) (.invalidTruthDegree i d)

variable {mode : EvidenceMode} {i : Nat}

theorem holds_or_fails (mode : EvidenceMode) (i : Nat)
    (g : Except NetworkError (GroundFormula Float)) :
    (∃ d, Holds mode g d) ∨ ∃ error, Fails mode i g error := by
  cases g with
  | error e => exact .inr ⟨_, .missing e⟩
  | ok f =>
      cases hd : f.degree mode with
      | error e => exact .inr ⟨_, .unknown hd⟩
      | ok d =>
          by_cases hunit : 0 ≤ d ∧ d ≤ 1
          · exact .inl ⟨d, f, rfl, hd, hunit⟩
          · exact .inr ⟨_, .outside hd hunit⟩

/-! ### The groundings of a formula -/

/-- A grounding with a degree is counted. -/
theorem countGroundings_of_holds {g : Except NetworkError (GroundFormula Float)} {d : Float}
    (h : Holds mode g d) (rest : List (Except NetworkError (GroundFormula Float)))
    (s : Satisfaction Float) :
    countGroundings mode i (g :: rest) s =
      countGroundings mode i rest ⟨s.groundings + 1, s.satisfied + d⟩ := by
  obtain ⟨f, rfl, hd, hunit⟩ := h
  rw [countGroundings, hd]
  exact if_pos (inUnitInterval_iff.2 hunit)

/-- Groundings with degrees are counted, and their degrees added up from left to right. -/
theorem countGroundings_append {before : List (Except NetworkError (GroundFormula Float))}
    {degrees : List Float} (h : List.Forall₂ (Holds mode) before degrees)
    (rest : List (Except NetworkError (GroundFormula Float))) (s : Satisfaction Float) :
    countGroundings mode i (before ++ rest) s =
      countGroundings mode i rest
        ⟨s.groundings + degrees.length, degrees.foldl (· + ·) s.satisfied⟩ := by
  induction h generalizing s with
  | nil => rfl
  | @cons g d before degrees hg _ ih =>
      have hlength : s.groundings + (d :: degrees).length = s.groundings + 1 + degrees.length := by
        rw [List.length_cons]
        omega
      rw [List.cons_append, countGroundings_of_holds hg, ih, hlength, List.foldl_cons]

/-- A grounding without a degree ends the count with its error. -/
theorem countGroundings_of_fails {g : Except NetworkError (GroundFormula Float)}
    {error : LearningError Float} (h : Fails mode i g error)
    (rest : List (Except NetworkError (GroundFormula Float))) (s : Satisfaction Float) :
    countGroundings mode i (g :: rest) s = .error error := by
  cases h with
  | missing e => rfl
  | unknown failed => rw [countGroundings, failed]
  | outside known outOfRange =>
      rw [countGroundings, known]
      exact if_neg fun hunit => outOfRange (inUnitInterval_iff.1 hunit)

/-- Either all groundings of a list have degrees, or there is a first that has none. -/
theorem all_hold_or_first_fails (mode : EvidenceMode) (i : Nat)
    (groundings : List (Except NetworkError (GroundFormula Float))) :
    (∃ degrees, List.Forall₂ (Holds mode) groundings degrees) ∨
      ∃ before g after degrees error, groundings = before ++ g :: after ∧
        List.Forall₂ (Holds mode) before degrees ∧ Fails mode i g error := by
  induction groundings with
  | nil => exact .inl ⟨[], .nil⟩
  | cons g rest ih =>
      rcases holds_or_fails mode i g with ⟨d, hd⟩ | ⟨error, hfails⟩
      · rcases ih with ⟨degrees, hall⟩ | ⟨before, g', after, degrees, error, rfl, hbefore, hfails⟩
        · exact .inl ⟨d :: degrees, .cons hd hall⟩
        · exact .inr ⟨g :: before, g', after, d :: degrees, error, rfl, .cons hd hbefore, hfails⟩
      · exact .inr ⟨[], g, rest, [], error, rfl, .nil, hfails⟩

namespace Network

/-- The groundings of formula `i` can be listed and have these degrees, one by one. -/
def Reads (net : Network Float) (mode : EvidenceMode) (i : Nat) (degrees : List Float) : Prop :=
  ∃ groundings, net.groundings i = .ok groundings ∧ List.Forall₂ (Holds mode) groundings degrees

theorem satisfaction_of_reads {net : Network Float} {degrees : List Float}
    (h : net.Reads mode i degrees) :
    net.satisfaction mode i = .ok ⟨degrees.length, runningSum degrees⟩ := by
  obtain ⟨groundings, hlisted, hread⟩ := h
  have hcount := countGroundings_append (i := i) hread [] ⟨0, 0⟩
  rw [List.append_nil, Nat.zero_add] at hcount
  rw [satisfaction, hlisted]
  exact hcount

/-- Why formula `i` has no weight, with the error. -/
inductive Flaw (net : Network Float) (mode : EvidenceMode) (i : Nat) : LearningError Float → Prop
  /-- Its groundings cannot be listed. -/
  | unlisted {e : NetworkError} (failed : net.groundings i = .error e) :
      Flaw net mode i (.network e)
  /-- A grounding has no degree, and it is the first. -/
  | unread {before after : List (Except NetworkError (GroundFormula Float))}
      {g : Except NetworkError (GroundFormula Float)} {degrees : List Float}
      {error : LearningError Float} (listed : net.groundings i = .ok (before ++ g :: after))
      (read : List.Forall₂ (Holds mode) before degrees) (failed : Fails mode i g error) :
      Flaw net mode i error
  /-- There are no groundings. -/
  | ungrounded (read : net.Reads mode i []) :
      Flaw net mode i (.degenerateStatistics i (net.label i) 0 0
        "formula has no groundings in the training database")
  /-- There are groundings, and nothing is satisfied. -/
  | unsatisfied {degrees : List Float} (read : net.Reads mode i degrees) (grounded : degrees ≠ [])
      (nothing : ¬0 < runningSum degrees) :
      Flaw net mode i (.degenerateStatistics i (net.label i) degrees.length (runningSum degrees)
        "no grounding is satisfied, ln(0) is -infinity")

/-- The error of a flaw is none of the maximisation. -/
theorem Flaw.ne_optimization {net : Network Float} {error : LearningError Float}
    {e : OptimizationError Float} (h : net.Flaw mode i error) : error ≠ .optimization e := by
  rintro rfl
  cases h with
  | unread _ _ failed => cases failed

section Logarithm

variable [ExpLog Float]

/-- Formula `i` has groundings, of which something is satisfied, and `w` is the logarithm of the
satisfied share: the degrees, added up from left to right, by the number of the groundings. -/
def Derives (net : Network Float) (mode : EvidenceMode) (i : Nat) (w : Float) : Prop :=
  ∃ degrees, net.Reads mode i degrees ∧ degrees ≠ [] ∧ 0 < runningSum degrees ∧
    w = ExpLog.log (runningSum degrees / Scalar.ofCount degrees.length)

variable {net : Network Float}

/-- **A formula has a weight or a flaw.** -/
theorem derives_or_flaw (net : Network Float) (mode : EvidenceMode) (i : Nat) :
    (∃ w, net.Derives mode i w) ∨ ∃ error, net.Flaw mode i error := by
  cases hlisted : net.groundings i with
  | error e => exact .inr ⟨_, .unlisted hlisted⟩
  | ok groundings =>
      rcases all_hold_or_first_fails mode i groundings with
        ⟨degrees, hread⟩ | ⟨before, g, after, degrees, error, rfl, hread, hfails⟩
      · have hreads : net.Reads mode i degrees := ⟨groundings, hlisted, hread⟩
        cases degrees with
        | nil => exact .inr ⟨_, .ungrounded hreads⟩
        | cons d degrees =>
            by_cases hpos : 0 < runningSum (d :: degrees)
            · exact .inl ⟨_, d :: degrees, hreads, List.cons_ne_nil d degrees, hpos, rfl⟩
            · exact .inr ⟨_, .unsatisfied hreads (List.cons_ne_nil d degrees) hpos⟩
      · exact .inr ⟨error, .unread hlisted hread hfails⟩

/-- A formula with a weight is fixed at it. -/
theorem fixFormula_of_derives {w : Float} (h : net.Derives mode i w) :
    ∃ f, net.fixFormula mode i = .ok f ∧ f.weight = w := by
  obtain ⟨degrees, hreads, hgrounded, hpos, rfl⟩ := h
  have hlength : degrees.length ≠ 0 := fun hzero => hgrounded (List.length_eq_zero_iff.1 hzero)
  have hless : Scalar.less 0 (runningSum degrees) = true := decide_eq_true hpos
  refine ⟨⟨i, net.label i, runningSum degrees / Scalar.ofCount degrees.length, _⟩, ?_, rfl⟩
  rw [fixFormula, satisfaction_of_reads hreads]
  change net.weightFrom i _ = _
  rw [weightFrom]
  dsimp only
  rw [if_neg hlength, if_pos hless]
  rfl

/-- A formula with a flaw is not fixed, and the error is the one of the flaw. -/
theorem fixFormula_of_flaw {error : LearningError Float} (h : net.Flaw mode i error) :
    net.fixFormula mode i = .error error := by
  cases h with
  | unlisted failed =>
      rw [fixFormula, satisfaction, failed]
      rfl
  | unread listed read failed =>
      have hcount : net.satisfaction mode i = .error error := by
        rw [satisfaction, listed]
        dsimp only
        rw [countGroundings_append read, countGroundings_of_fails failed]
      rw [fixFormula, hcount]
      rfl
  | ungrounded read =>
      rw [fixFormula, satisfaction_of_reads read]
      rfl
  | @unsatisfied degrees read grounded nothing =>
      have hlength : degrees.length ≠ 0 := fun hzero => grounded (List.length_eq_zero_iff.1 hzero)
      have hless : Scalar.less 0 (runningSum degrees) ≠ true :=
        fun htrue => nothing (of_decide_eq_true htrue)
      rw [fixFormula, satisfaction_of_reads read]
      change net.weightFrom i _ = _
      rw [weightFrom]
      dsimp only
      rw [if_neg hlength, if_neg hless]

theorem exists_fixFormula_iff :
    (∃ f, net.fixFormula mode i = .ok f) ↔ ∃ w, net.Derives mode i w := by
  constructor
  · rintro ⟨f, hf⟩
    refine (net.derives_or_flaw mode i).resolve_right ?_
    rintro ⟨error, hflaw⟩
    cases hf.symm.trans (fixFormula_of_flaw hflaw)
  · rintro ⟨w, hw⟩
    obtain ⟨f, hf, -⟩ := fixFormula_of_derives hw
    exact ⟨f, hf⟩

theorem fixFormula_eq_error_iff {error : LearningError Float} :
    net.fixFormula mode i = .error error ↔ net.Flaw mode i error := by
  refine ⟨fun h => ?_, fixFormula_of_flaw⟩
  rcases net.derives_or_flaw mode i with ⟨w, hw⟩ | ⟨error', hflaw⟩
  · obtain ⟨f, hf, -⟩ := fixFormula_of_derives hw
    cases h.symm.trans hf
  · rwa [Except.error.inj (h.symm.trans (fixFormula_of_flaw hflaw))]

end Logarithm

/-! ### The formulas of a list -/

section List

variable {R : Type} [Zero R] [One R] [Add R] [Scalar R] [Div R] [ExpLog R] {net : Network R}

/-- If each formula of a list can be fixed, all are. -/
theorem exists_fixFormulas {list : List Nat} (h : ∀ i ∈ list, ∃ f, net.fixFormula mode i = .ok f) :
    ∃ formulas, net.fixFormulas mode list = (formulas, .ok ()) := by
  induction list with
  | nil => exact ⟨[], rfl⟩
  | cons i rest ih =>
      obtain ⟨f, hf⟩ := h i List.mem_cons_self
      obtain ⟨formulas, hformulas⟩ := ih fun j hj => h j (List.mem_cons_of_mem _ hj)
      exact ⟨f :: formulas, by rw [fixFormulas, hf, hformulas]⟩

/-- **Formulas are fixed one after the other**: behind those that can be fixed the rest decides. -/
theorem fixFormulas_append {before rest : List Nat} {formulas : List (FixedFormula R)}
    (h : net.fixFormulas mode before = (formulas, .ok ())) :
    net.fixFormulas mode (before ++ rest) =
      (formulas ++ (net.fixFormulas mode rest).1, (net.fixFormulas mode rest).2) := by
  induction before generalizing formulas with
  | nil =>
      cases h
      rfl
  | cons i before ih =>
      rw [fixFormulas] at h
      cases hi : net.fixFormula mode i with
      | error error => rw [hi] at h; cases h
      | ok f =>
          rw [hi] at h
          cases hb : net.fixFormulas mode before with
          | mk others result =>
              rw [hb] at h
              cases h
              rw [List.cons_append, fixFormulas, hi, ih hb]
              rfl

/-- The weights of a table are derived if each formula of the list can be fixed. -/
theorem exists_fixedWeights (h : ∀ i ∈ net.fixedFormulas, ∃ f, net.fixFormula mode i = .ok f) :
    ∃ fixed, net.fixedWeights mode = .ok fixed := by
  obtain ⟨formulas, hformulas⟩ := exists_fixFormulas h
  exact ⟨fixedTable formulas, by rw [fixedWeights, hformulas]; rfl⟩

/-- The first formula of the list that cannot be fixed is the error. -/
theorem fixedWeights_eq_error {before after : List Nat} {error : LearningError R}
    (hlist : net.fixedFormulas = before ++ i :: after)
    (hbefore : ∀ j ∈ before, ∃ f, net.fixFormula mode j = .ok f)
    (hi : net.fixFormula mode i = .error error) : net.fixedWeights mode = .error error := by
  obtain ⟨formulas, hformulas⟩ := exists_fixFormulas hbefore
  rw [fixedWeights, hlist, fixFormulas_append hformulas, fixFormulas, hi]
  rfl

/-- Either each formula of a list can be fixed, or there is a first that cannot. -/
theorem all_fixed_or_first_not (net : Network R) (mode : EvidenceMode) (list : List Nat) :
    (∀ i ∈ list, ∃ f, net.fixFormula mode i = .ok f) ∨
      ∃ before i after error, list = before ++ i :: after ∧
        (∀ j ∈ before, ∃ f, net.fixFormula mode j = .ok f) ∧
        net.fixFormula mode i = .error error := by
  induction list with
  | nil => exact .inl nofun
  | cons i rest ih =>
      cases hi : net.fixFormula mode i with
      | error error => exact .inr ⟨[], i, rest, error, rfl, nofun, hi⟩
      | ok f =>
          rcases ih with hall | ⟨before, j, after, error, rfl, hbefore, hj⟩
          · exact .inl (List.forall_mem_cons.2 ⟨⟨f, hi⟩, hall⟩)
          · exact .inr ⟨i :: before, j, after, error, rfl,
              List.forall_mem_cons.2 ⟨⟨f, hi⟩, hbefore⟩, hj⟩

/-- A table is derived if and only if each formula of the list can be fixed. -/
theorem exists_fixedWeights_iff :
    (∃ fixed, net.fixedWeights mode = .ok fixed) ↔
      ∀ i ∈ net.fixedFormulas, ∃ f, net.fixFormula mode i = .ok f := by
  refine ⟨?_, exists_fixedWeights⟩
  rintro ⟨fixed, hfixed⟩
  refine (net.all_fixed_or_first_not mode net.fixedFormulas).resolve_right ?_
  rintro ⟨before, i, after, error, hlist, hbefore, hi⟩
  cases hfixed.symm.trans (fixedWeights_eq_error hlist hbefore hi)

/-- Deriving fails with an error if and only if the first formula that cannot be fixed does. -/
theorem fixedWeights_eq_error_iff {error : LearningError R} :
    net.fixedWeights mode = .error error ↔
      ∃ before i after, net.fixedFormulas = before ++ i :: after ∧
        (∀ j ∈ before, ∃ f, net.fixFormula mode j = .ok f) ∧
        net.fixFormula mode i = .error error := by
  constructor
  · intro h
    rcases net.all_fixed_or_first_not mode net.fixedFormulas with
      hall | ⟨before, i, after, error', hlist, hbefore, hi⟩
    · obtain ⟨fixed, hfixed⟩ := exists_fixedWeights hall
      cases h.symm.trans hfixed
    · obtain rfl := Except.error.inj (h.symm.trans (fixedWeights_eq_error hlist hbefore hi))
      exact ⟨before, i, after, hlist, hbefore, hi⟩
  · rintro ⟨before, i, after, hlist, hbefore, hi⟩
    exact fixedWeights_eq_error hlist hbefore hi

end List

/-! ### The table -/

/-- **The fixed weights are derived unless there is a flaw, and the error is the one of the first
flaw.**  If each formula of the list has a weight, the table has these weights, for the formulas of
the list and for no others.  If not, there is a first formula of the list that has none, and the
error is the one of its flaw. -/
theorem derived_or_first_flaw [ExpLog Float] (net : Network Float) (mode : EvidenceMode) :
    ((∃ fixed, net.fixedWeights mode = .ok fixed) ↔
      ∀ i ∈ net.fixedFormulas, ∃ w, net.Derives mode i w) ∧
    (∀ fixed, net.fixedWeights mode = .ok fixed →
      (∀ i, (∃ w, fixed.find? i = some w) ↔ i ∈ net.fixedFormulas) ∧
      ∀ i w, fixed.find? i = some w → net.Derives mode i w) ∧
    ∀ error, net.fixedWeights mode = .error error ↔
      ∃ before i after, net.fixedFormulas = before ++ i :: after ∧
        (∀ j ∈ before, ∃ w, net.Derives mode j w) ∧ net.Flaw mode i error := by
  refine ⟨?_, fun fixed hfixed => ⟨fun i => ⟨?_, ?_⟩, fun i w hw => ?_⟩, fun error => ?_⟩
  · rw [exists_fixedWeights_iff]
    exact forall₂_congr fun i _ => exists_fixFormula_iff
  · rintro ⟨w, hw⟩
    exact net.mem_fixedFormulas_of_find? hfixed hw
  · intro hi
    exact net.exists_find?_of_fixedWeights hfixed hi
  · obtain ⟨f, hf, rfl⟩ := net.exists_fixFormula_of_find? hfixed hw
    obtain ⟨w, hw⟩ := exists_fixFormula_iff.1 ⟨f, hf⟩
    obtain ⟨f', hf', rfl⟩ := fixFormula_of_derives hw
    rwa [Except.ok.inj (hf.symm.trans hf')]
  · rw [fixedWeights_eq_error_iff]
    simp only [exists_fixFormula_iff, fixFormula_eq_error_iff]

/-- Three formulas to be fixed.  As truth values all degrees are fine; as soft degrees one of the
second formula is out of range, and none of the third is known. -/
def overdone : Network Float where
  formulaCount := 3
  weight _ := .ok 0
  fixedFormulas := [0, 1, 2]
  groundings
    | 0 => .ok [.ok { truth := .ok true }]
    | 1 => .ok [.ok { truth := .ok true }, .ok ⟨.ok false, .ok 2⟩]
    | _ => .ok [.ok ⟨.ok true, .error (.evidence "no soft evidence")⟩]

/-- By truth values every formula gets its weight, and by soft degrees the second one is the
flaw. -/
theorem derived_or_first_flaw_overdone :
    (∃ fixed, overdone.fixedWeights .hard = .ok fixed ∧
      fixed.find? 1 = some (ExpLog.log (1 / 2)) ∧ overdone.Derives .hard 1 (ExpLog.log (1 / 2))) ∧
    overdone.fixedWeights .soft = .error (.invalidTruthDegree 1 2) := by
  obtain ⟨-, htable, -⟩ := derived_or_first_flaw overdone .hard
  obtain ⟨-, -, herror⟩ := derived_or_first_flaw overdone .soft
  refine ⟨⟨_, rfl, rfl, (htable _ rfl).2 1 _ rfl⟩, (herror _).2 ⟨[0], 1, [2], rfl, ?_, ?_⟩⟩
  · intro j hj
    obtain rfl := List.mem_singleton.1 hj
    have hread : overdone.Reads .soft 0 [1] :=
      ⟨_, rfl, .cons ⟨_, rfl, rfl, by decide, by decide⟩ .nil⟩
    exact ⟨_, [1], hread, by simp, by decide, rfl⟩
  · have hlisted : overdone.groundings 1 =
        .ok ([.ok { truth := .ok true }] ++ .ok ⟨.ok false, .ok 2⟩ :: []) := rfl
    have hread : List.Forall₂ (Holds .soft) [.ok { truth := .ok true }] [1] :=
      .cons ⟨_, rfl, rfl, by decide, by decide⟩ .nil
    exact .unread hlisted hread (.outside rfl (by decide))

end Network

end MarkovLogic
