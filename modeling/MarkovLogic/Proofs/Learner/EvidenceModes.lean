/-
**What soft evidence may change.**

Soft evidence is a matter of the objective, which says how the evidence is to be read.  A run reads
it while the fixed weights are derived, and nowhere else.  So if both readings agree on the
groundings that are looked at for these weights, a run with soft evidence is the run with hard
evidence: question by question, record by record, and with the same end, a failure included.  What
the groundings of the other formulas are worth as soft evidence does not matter.

Groundings are looked at from left to right, up to the first that goes wrong.  What stands behind
that one does not matter either.

Main definitions:

* `Network.LooksAt` — a grounding that is looked at when the weight of a formula is derived;
* `Network.ModesAgree` — both readings of the evidence agree on what is looked at.

Main results:

* `Network.fixFormulas_soft` — **then the same weights are derived, or the same failure is met**;
* `Learner.run_soft` — **and a run is the same dialogue**;
* `Learner.same_run_with_soft_evidence` — **so soft evidence cannot be told from hard evidence**,
  in particular if there is none, or no weight to be fixed.
-/
import MarkovLogic.Proofs.Learner.KeptWeights
import MarkovLogic.Proofs.Weights.Derivation

set_option autoImplicit false

namespace MarkovLogic

/-! ### Where the readings agree -/

namespace Network

/-- The grounding `g` of formula `i` is looked at: nothing goes wrong with those in front of it. -/
def LooksAt (net : Network Float) (mode : EvidenceMode) (i : Nat) (g : GroundFormula Float) :
    Prop :=
  ∃ before after degrees, net.groundings i = .ok (before ++ .ok g :: after) ∧
    List.Forall₂ (Holds mode) before degrees

/-- Both readings of the evidence have the same answer to every question that the fixed weights
raise: the same degree, or the same failure. -/
def ModesAgree (net : Network Float) : Prop :=
  ∀ i ∈ net.fixedFormulas, ∀ g, net.LooksAt .hard i g → g.degree .soft = g.degree .hard

/-- They agree if no grounding has soft evidence of its own. -/
theorem modesAgree_of_softDegree {net : Network Float}
    (h : ∀ i ∈ net.fixedFormulas, ∀ groundings, net.groundings i = .ok groundings →
      ∀ g, .ok g ∈ groundings → g.softDegree = g.truth.map degreeOf) : net.ModesAgree := by
  rintro i hi g ⟨before, after, degrees, hlisted, -⟩
  exact h i hi _ hlisted g (List.mem_append_right before List.mem_cons_self)

/-- They agree if no weight is to be fixed. -/
theorem modesAgree_of_fixedFormulas {net : Network Float} (h : net.fixedFormulas = []) :
    net.ModesAgree := by
  intro i hi
  rw [h] at hi
  cases hi

end Network

/-! ### The fixed weights -/

/-- Groundings on which both readings agree are counted alike, as far as they are counted. -/
theorem countGroundings_soft {i : Nat}
    {groundings : List (Except NetworkError (GroundFormula Float))}
    (h : ∀ before g after degrees, groundings = before ++ .ok g :: after →
      List.Forall₂ (Holds .hard) before degrees → g.degree .soft = g.degree .hard)
    (s : Satisfaction Float) :
    countGroundings .soft i groundings s = countGroundings .hard i groundings s := by
  induction groundings generalizing s with
  | nil => rfl
  | cons g rest ih =>
      cases g with
      | error error => rfl
      | ok g =>
          rw [countGroundings, countGroundings, h [] g rest [] rfl .nil]
          cases hd : g.degree .hard with
          | error error => rfl
          | ok d =>
              dsimp only
              by_cases hunit : inUnitInterval d = true
              · -- the degree is counted, and what is behind it is looked at
                rw [if_pos hunit, if_pos hunit]
                refine ih (fun before g' after degrees hrest hread => ?_) _
                have hholds : Holds .hard (.ok g) d := ⟨g, rfl, hd, inUnitInterval_iff.1 hunit⟩
                exact h (.ok g :: before) g' after (d :: degrees) (by rw [hrest, List.cons_append])
                  (.cons hholds hread)
              · rw [if_neg hunit, if_neg hunit]

namespace Network

variable {net : Network Float}

/-- A formula has the same weight in both readings, or the same flaw. -/
theorem fixFormula_soft [ExpLog Float] {i : Nat}
    (h : ∀ g, net.LooksAt .hard i g → g.degree .soft = g.degree .hard) :
    net.fixFormula .soft i = net.fixFormula .hard i := by
  have hcount : net.satisfaction .soft i = net.satisfaction .hard i := by
    rw [satisfaction, satisfaction]
    cases hlisted : net.groundings i with
    | error error => rfl
    | ok groundings =>
        refine countGroundings_soft (fun before g after degrees heq hread => ?_) ⟨0, 0⟩
        exact h g ⟨before, after, degrees, by rw [hlisted, heq], hread⟩
  rw [fixFormula, fixFormula, hcount]

/-- **The same weights are derived in both readings**, one after the other, up to the same flaw. -/
theorem fixFormulas_soft [ExpLog Float] {list : List Nat}
    (h : ∀ i ∈ list, ∀ g, net.LooksAt .hard i g → g.degree .soft = g.degree .hard) :
    net.fixFormulas .soft list = net.fixFormulas .hard list := by
  induction list with
  | nil => rfl
  | cons i rest ih =>
      obtain ⟨hfirst, hrest⟩ := List.forall_mem_cons.1 h
      rw [fixFormulas, fixFormulas, fixFormula_soft hfirst, ih hrest]

end Network

/-! ### Runs -/

variable {net : Network Float}

/-- What is prepared is the same in both readings. -/
theorem prepare_soft (h : net.ModesAgree) (options : LearnOptions) :
    prepare net .soft options = prepare net .hard options := by
  have hfixed : net.fixedWeights .soft = net.fixedWeights .hard := by
    rw [Network.fixedWeights, Network.fixedWeights, Network.fixFormulas_soft h]
  have hpartition : derivePartition net .soft = derivePartition net .hard := by
    rw [derivePartition, derivePartition, hfixed]
  rw [prepare, prepare, hpartition]

/-- What is recorded on the way is the same. -/
theorem prepareRecords_soft (h : net.ModesAgree) (options : LearnOptions) :
    prepareRecords net .soft options = prepareRecords net .hard options := by
  have hfixed : net.fixedRecords .soft = net.fixedRecords .hard := by
    rw [Network.fixedRecords, Network.fixedRecords, Network.fixFormulas_soft h]
  rw [prepareRecords, prepareRecords, hfixed]

/-- **A run is the same dialogue in both readings**, whoever will answer. -/
theorem Learner.run_soft (h : net.ModesAgree) (backend : Backend) (level : LogLevel)
    (allowance : Nat) (options : LearnOptions) (learner : Learner net.formulaCount) :
    run net .soft backend level allowance options learner =
      run net .hard backend level allowance options learner := by
  cases backend with
  | unavailable => rfl
  | available => rw [run, run, prepare_soft h, prepareRecords_soft h]

/-- **Soft evidence cannot be told from hard evidence** unless the readings differ where the fixed
weights are derived.  If they agree there, a run with an objective that reads the evidence as true
or false and a run with its softened form ask the same questions and get the same answers, write the
same records, and end with the same learner and the same result, or are both left unfinished.  The
readings agree in particular if no formula to be fixed has soft evidence of its own, and if no
weight is to be fixed. -/
theorem Learner.same_run_with_soft_evidence (o : Objective Float) (ho : o.mode = .hard)
    (backend : Backend) (level : LogLevel) (allowance : Nat) (options : LearnOptions) :
    (∀ net : Network Float, net.ModesAgree → ∀ learner : Learner net.formulaCount,
      (run net o.softened.mode backend level allowance options learner).run
          o.softened.respond () =
        (run net o.mode backend level allowance options learner).run o.respond ()) ∧
    (∀ net : Network Float, (∀ i ∈ net.fixedFormulas, ∀ groundings,
        net.groundings i = .ok groundings →
          ∀ g, .ok g ∈ groundings → g.softDegree = g.truth.map degreeOf) → net.ModesAgree) ∧
    ∀ net : Network Float, net.fixedFormulas = [] → net.ModesAgree := by
  refine ⟨fun net h learner => ?_, fun net => Network.modesAgree_of_softDegree,
    fun net => Network.modesAgree_of_fixedFormulas⟩
  have hsoft : o.softened.mode = .soft := rfl
  have hanswers : o.softened.respond (n := net.formulaCount) = o.respond := rfl
  rw [hsoft, ho, run_soft h, hanswers]

/-- Two formulas, of which the second is to be fixed.  Its first grounding has no soft evidence of
its own, and that of the second is no more than its truth.  The first formula holds, and to the
degree one half. -/
def halfSoft : Network Float where
  formulaCount := 2
  weight _ := .ok 0
  fixedFormulas := [1]
  groundings
    | 0 => .ok [.ok ⟨.ok true, .ok (1 / 2)⟩]
    | _ => .ok [.ok { truth := .ok true }, .ok ⟨.ok false, .ok 0⟩]

/-- What the first formula is worth as soft evidence does not show in the run, which succeeds. -/
theorem Learner.same_run_with_soft_evidence_halfSoft :
    halfSoft.satisfaction .soft 0 ≠ halfSoft.satisfaction .hard 0 ∧ halfSoft.ModesAgree ∧
      (run halfSoft .soft .available .debug 0 .standard (.fresh 2)).run flat.softened.respond () =
        (run halfSoft .hard .available .debug 0 .standard (.fresh 2)).run flat.respond () ∧
      ((run halfSoft .soft .available .debug 0 .standard (.fresh 2)).run
        flat.softened.respond ()).result.any (·.2.isOk) = true := by
  have hagree : halfSoft.ModesAgree := by
    rintro i hi g ⟨before, after, degrees, hlisted, -⟩
    obtain rfl := List.mem_singleton.1 hi
    have hmem : .ok g ∈ before ++ .ok g :: after :=
      List.mem_append_right before List.mem_cons_self
    rw [← Except.ok.inj hlisted] at hmem
    rcases List.mem_cons.1 hmem with hg | hmem
    · cases hg
      rfl
    · cases List.mem_singleton.1 hmem
      rfl
  refine ⟨?_, hagree, ?_, by decide +kernel⟩
  · intro heq
    have hsatisfied := congrArg (fun s => s.toOption.map (·.satisfied)) heq
    exact absurd hsatisfied (by decide +kernel)
  · exact (same_run_with_soft_evidence flat rfl .available .debug 0 .standard).1 halfSoft hagree
      (.fresh 2)

end MarkovLogic
