/-
**Fixed weights are kept.**

A maximisation never sees the fixed weights: its points are reduced vectors, and the objective is
asked about their expansions.  So every vector the objective ever sees in a run carries the derived
weight at each formula whose weight is to be fixed, whatever the objective answers and wherever the
run ends, and so does the vector that a successful run returns and keeps.

Main definitions:

* `Network.Keeps` — a vector of the right length with the weights of a table at the fixed formulas.

Main results:

* `Network.keeps_expand` — expanded vectors keep the fixed weights;
* `exists_point_eq_expand` — the objective is asked about expanded vectors alone;
* `Learner.fixed_weights_kept` — **fixed weights are kept throughout a run**.
-/
import MarkovLogic.Likelihood.Objective
import MarkovLogic.Proofs.Learner.Course

set_option autoImplicit false

namespace MarkovLogic

variable {n : Nat} {σ : Type}

/-- The vector has an entry for each formula, and at each formula whose weight is to be fixed the
weight of the table. -/
def Network.Keeps (net : Network Float) (fixed : FixedWeights Float) (w : Array Float) : Prop :=
  w.size = net.formulaCount ∧
    ∀ i ∈ net.fixedFormulas, ∃ weight, fixed.find? i = some weight ∧ w[i]? = some weight

/-- Expanded vectors keep the fixed weights. -/
theorem Network.keeps_expand {net : Network Float} {mode : EvidenceMode}
    {fixed : FixedWeights Float} {p : Partition Float net.formulaCount}
    (hfixed : net.fixedWeights mode = .ok fixed)
    (hp : Partition.ofFixed net.formulaCount fixed = .ok p) (x : Vector Float p.freeCount) :
    net.Keeps fixed (p.expand x).toArray := by
  refine ⟨(p.expand x).size_toArray, fun i hi => ?_⟩
  obtain ⟨weight, hweight⟩ := net.exists_find?_of_fixedWeights hfixed hi
  exact ⟨weight, hweight, Partition.getElem?_expand hp x hweight⟩

/-- **The objective is asked about expanded vectors alone**, in every course of a learner's
maximisation. -/
theorem exists_point_eq_expand {level : LogLevel} {allowance : Nat} {p : Preparation n}
    {events : List (Event (Consult Float n) Consult.Answer)}
    {result : Option (Except (LearningError Float) (Vector Float p.partition.freeCount ×
      Diagnostics))}
    (h : (optimize level allowance p).Unfolds events result) {q : Consult Float n} {a : q.Answer}
    (hq : .answered q a ∈ events) : ∃ x, q.point = p.partition.expand x := by
  rcases unfolds_optimize h with ⟨answer, rfl, -⟩ | ⟨inner, o, -, hrelayed, -⟩
  · obtain ⟨rfl, -⟩ := Event.answered.inj (List.mem_singleton.1 hq)
    exact ⟨p.reduced, rfl⟩
  · obtain ⟨e, -, he⟩ := exists_relayed_of_mem hrelayed hq
    cases he with
    | answered q' a => exact ⟨q'.point, p.partition.point_liftQuestion q'⟩

/-- **Fixed weights are kept throughout a run.**  Whoever answers, every vector the objective is
asked about has the weights of the derived table at the formulas whose weight is to be fixed, and a
run that succeeds returns and keeps such a vector. -/
theorem Learner.fixed_weights_kept (net : Network Float) (mode : EvidenceMode) (backend : Backend)
    (level : LogLevel) (allowance : Nat) (options : LearnOptions)
    (learner : Learner net.formulaCount)
    (respond : σ → (q : Consult Float net.formulaCount) → q.Answer × σ) (s : σ) :
    let exchange :=
      (Learner.run net mode backend level allowance options learner).run respond s
    (∀ q a, .answered q a ∈ exchange.transcript →
      ∃ fixed, net.fixedWeights mode = .ok fixed ∧ net.Keeps fixed q.point.toArray) ∧
    ∀ after learned, exchange.result = some (after, .ok learned) →
      ∃ fixed, net.fixedWeights mode = .ok fixed ∧ net.Keeps fixed learned.weights.toArray ∧
        ∃ w, after.weights = some w ∧ net.Keeps fixed w.toArray := by
  intro exchange
  have hcourse := Dialogue.unfolds_run respond
    (Learner.run net mode backend level allowance options learner) s
  rcases Learner.unfolds_run hcourse with ⟨error, -, hsilent, hresult⟩ |
    ⟨error, -, hsilent, hresult⟩ |
    ⟨p, hp, front, body, back, r, hfront, hback, hevents, hbody, hresult⟩
  · -- no backend: nothing is asked and nothing is learned
    refine ⟨fun q a hq => absurd hq (hsilent.not_mem_answered q a), fun after learned h => ?_⟩
    cases hresult.symm.trans h
  · refine ⟨fun q a hq => absurd hq (hsilent.not_mem_answered q a), fun after learned h => ?_⟩
    cases hresult.symm.trans h
  · obtain ⟨start, fixed, -, hfixed, hpartition, -⟩ := exists_of_prepare hp
    have hkeeps := net.keeps_expand hfixed hpartition
    refine ⟨fun q a hq => ⟨fixed, hfixed, ?_⟩, fun after learned h => ⟨fixed, hfixed, ?_⟩⟩
    · rw [hevents] at hq
      obtain ⟨x, hx⟩ := exists_point_eq_expand hbody (mem_of_mem_enclosed hfront hback hq)
      rw [hx]
      exact hkeeps x
    · cases r with
      | none => cases hresult.symm.trans h
      | some r =>
          have hconclude := Option.some.inj (hresult.symm.trans h)
          obtain ⟨reduced, diagnostics, -, rfl, rfl⟩ := Learner.exists_of_conclude_eq_ok hconclude
          exact ⟨hkeeps reduced, _, rfl, hkeeps reduced⟩

/-! ### A run of two formulas -/

/-- Two formulas, of which the second is to be fixed and holds in its only grounding. -/
def halfFixed : Network Float where
  formulaCount := 2
  weight _ := .ok 0
  fixedFormulas := [1]
  groundings _ := .ok [.ok { truth := .ok true }]

/-- An objective that has the same value everywhere. -/
def flat : Objective Float where
  value _ := .ok 0
  gradient w := .ok (w.map fun _ => 0)

/-- A run on two formulas asks, succeeds, and keeps the fixed weight. -/
theorem Learner.fixed_weights_kept_halfFixed :
    let exchange :=
      (Learner.run halfFixed .hard .available .off 0 .standard (.fresh 2)).run flat.respond ()
    (∃ q a, .answered q a ∈ exchange.transcript ∧
      ∃ fixed, halfFixed.fixedWeights .hard = .ok fixed ∧
        halfFixed.Keeps fixed q.point.toArray) ∧
    ∃ after learned, exchange.result = some (after, .ok learned) ∧
      ∃ fixed, halfFixed.fixedWeights .hard = .ok fixed ∧
        halfFixed.Keeps fixed learned.weights.toArray ∧
        ∃ w, after.weights = some w ∧ halfFixed.Keeps fixed w.toArray := by
  intro exchange
  obtain ⟨hasked, hlearned⟩ := Learner.fixed_weights_kept halfFixed .hard .available .off 0
    .standard (.fresh 2) flat.respond ()
  have hsome : exchange.transcript.any (fun e => e matches .answered ..) = true := by
    decide +kernel
  have hok : exchange.result.any (fun r => r.2.isOk) = true := by decide +kernel
  constructor
  · obtain ⟨e, he, hmatch⟩ := List.any_eq_true.1 hsome
    cases e with
    | answered q a => exact ⟨q, a, he, hasked q a he⟩
    | noted record => cases hmatch
  · obtain ⟨⟨after, r⟩, hr, hisOk⟩ := (Option.any_eq_true _ _).1 hok
    cases r with
    | ok learned => exact ⟨after, learned, hr, hlearned after learned hr⟩
    | error error => cases hisOk

end MarkovLogic
