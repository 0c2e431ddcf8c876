/-
**What a difference pass finds.**

A pass asks for the values at all its points, in one order and whatever is answered.  If each answer
is a finite value, the quotients of the pass are the entries of one vector; else the pass has a
first fault.  So a pass comes to one of three ends: a finite vector, a fault, or a vector with a
first entry that is not finite.  This holds of central and forward differences alike, which differ
in their points and quotients only.

Main definitions:

* `fault?`, `firstFault?` — what is wrong with an answer, and the first such thing in a pass;
* `answersAt`, `passEvents` — the answers in a pass and the events they make;
* `CentralDifference`, `ForwardDifference` — the vector of quotients, with the points of its values;
* `MakeUp` — the quotients of a pass are the entries of the one vector of some kind;
* `PassSucceeds`, `PassFails` — the ends of a pass.

Main results:

* `run_costsAt` — **the run of a pass**;
* `makeUp_centralDifference`, `makeUp_forwardDifference` — the vectors of the two kinds of pass;
* `MakeUp.passOutcome_eq_ok_iff`, `MakeUp.passOutcome_eq_error_iff` — **a pass comes to the end it
  should**.
-/
import MarkovLogic.Proofs.Dialogue.Run
import MarkovLogic.Proofs.Solver.FirstFailure

set_option autoImplicit false

namespace MarkovLogic

variable {R σ : Type} {n : ℕ}

/-! ### Faults of answers -/

section Faults

variable [Scalar R]

/-- What is wrong with an answer: the objective failed, or its value is not finite. -/
def fault? : Except (OptimizationError R) R → Option (OptimizationError R)
  | .error error => some error
  | .ok v => if Scalar.isFinite v then none else some (.nonFiniteCost v)

/-- The first thing that is wrong with some answers. -/
def firstFault? (answers : List (Except (OptimizationError R) R)) :
    Option (OptimizationError R) :=
  answers.findSome? fault?

variable [Neg R]

/-- The cost in an answer. -/
def costIn : Except (OptimizationError R) R → Except (OptimizationError R) R
  | .error error => .error error
  | .ok v => if Scalar.isFinite v then .ok (-v) else .error (.nonFiniteCost v)

theorem costIn_eq_error_iff {answer : Except (OptimizationError R) R}
    {error : OptimizationError R} : costIn answer = .error error ↔ fault? answer = some error := by
  cases answer with
  | error e => rw [costIn, fault?, Except.error.injEq, Option.some.injEq]
  | ok v =>
      rw [costIn, fault?]
      split
      · exact ⟨nofun, nofun⟩
      · rw [Except.error.injEq, Option.some.injEq]

/-- An answer has a cost if it is a finite value, and the cost is that value with the other sign. -/
theorem eq_ok_of_costIn {answer : Except (OptimizationError R) R} {cost : R}
    (h : costIn answer = .ok cost) : ∃ v, answer = .ok v ∧ cost = -v := by
  cases answer with
  | error e => cases h
  | ok v =>
      rw [costIn] at h
      split at h
      · exact ⟨v, rfl, (Except.ok.inj h).symm⟩
      · cases h

end Faults

/-! ### Results of a pass -/

/-- The error in a result. -/
def errorIn? : Except (OptimizationError R) R → Option (OptimizationError R)
  | .error error => some error
  | .ok _ => none

theorem findSome?_map_ok (values : List R) :
    (values.map Except.ok).findSome? (errorIn? (R := R)) = none := by
  rw [List.findSome?_map]
  exact List.findSome?_eq_none_iff.2 fun _ _ => rfl

theorem passValues_cons_ok (v : R) (results : List (Except (OptimizationError R) R)) :
    passValues (.ok v :: results) = (passValues results).map (v :: ·) := by
  rw [passValues, passValues, List.mapM_cons]
  cases results.mapM id with
  | error error => rfl
  | ok values => rfl

/-- A pass has the error that comes first in it, or else all its values. -/
theorem passValues_cases (results : List (Except (OptimizationError R) R)) :
    (∃ error, passValues results = .error error ∧ results.findSome? errorIn? = some error) ∨
      ∃ values, passValues results = .ok values ∧ results = values.map .ok := by
  induction results with
  | nil => exact .inr ⟨[], rfl, rfl⟩
  | cons result results ih =>
      cases result with
      | error error =>
          -- whatever comes behind an error is not looked at
          exact .inl ⟨error, rfl, rfl⟩
      | ok v =>
          rw [passValues_cons_ok]
          rcases ih with ⟨error, hpass, hfirst⟩ | ⟨values, hpass, hvalues⟩
          · refine .inl ⟨error, by rw [hpass]; rfl, ?_⟩
            rw [List.findSome?_cons]
            exact hfirst
          · exact .inr ⟨v :: values, by rw [hpass]; rfl, by rw [hvalues, List.map_cons]⟩

section Costs

variable [Scalar R] [Neg R]

/-- If every answer has a cost, the answers are values and the costs these with the other sign. -/
theorem exists_values_of_costs {answers : List (Except (OptimizationError R) R)} {costs : List R}
    (h : answers.map costIn = costs.map .ok) :
    ∃ values : List R, answers = values.map .ok ∧ costs = values.map (-·) := by
  induction answers generalizing costs with
  | nil => exact ⟨[], rfl, List.map_eq_nil_iff.1 h.symm⟩
  | cons answer answers ih =>
      cases costs with
      | nil => cases h
      | cons cost costs =>
          obtain ⟨hcost, hcosts⟩ := List.cons.inj h
          obtain ⟨v, rfl, rfl⟩ := eq_ok_of_costIn hcost
          obtain ⟨values, rfl, rfl⟩ := ih hcosts
          exact ⟨v :: values, rfl, rfl⟩

theorem findSome?_map_costIn (answers : List (Except (OptimizationError R) R)) :
    (answers.map costIn).findSome? errorIn? = firstFault? answers := by
  rw [List.findSome?_map, firstFault?]
  congr 1
  funext answer
  cases hcost : costIn answer with
  | error error => rw [Function.comp_apply, hcost, errorIn?, costIn_eq_error_iff.1 hcost]
  | ok cost =>
      rw [Function.comp_apply, hcost, errorIn?]
      cases hfault : fault? answer with
      | none => rfl
      | some error => cases hcost.symm.trans (costIn_eq_error_iff.2 hfault)

/-- A pass has a first fault, or else its answers are values and have their costs. -/
theorem passValues_map_costIn (answers : List (Except (OptimizationError R) R)) :
    (∃ error, passValues (answers.map costIn) = .error error ∧ firstFault? answers = some error) ∨
      ∃ values : List R, answers = values.map .ok ∧ firstFault? answers = none ∧
        passValues (answers.map costIn) = .ok (values.map (-·)) := by
  rcases passValues_cases (answers.map costIn) with ⟨error, hpass, hfirst⟩ | ⟨costs, hpass, hcosts⟩
  · exact .inl ⟨error, hpass, (findSome?_map_costIn answers).symm.trans hfirst⟩
  · have hnone : firstFault? answers = none := by
      rw [← findSome?_map_costIn, hcosts, findSome?_map_ok]
    obtain ⟨values, hvalues, rfl⟩ := exists_values_of_costs hcosts
    exact .inr ⟨values, hvalues, hnone, hpass⟩

end Costs

/-! ### The run of a pass -/

/-- The answers to the values at a list of points, asked for one after the other, and the state
in which the respondent is left. -/
def answersAt (respond : σ → (q : Consult R n) → q.Answer × σ) :
    List (Vector R n) → σ → List (Except (OptimizationError R) R) × σ
  | [], s => ([], s)
  | x :: xs, s =>
    let first := respond s (.value .difference x)
    let rest := answersAt respond xs first.2
    (first.1 :: rest.1, rest.2)

/-- The events of a pass: at each point its answer. -/
def passEvents (points : List (Vector R n)) (answers : List (Except (OptimizationError R) R)) :
    List (Event (Consult R n) Consult.Answer) :=
  List.zipWith (fun x answer => .answered (.value .difference x) answer) points answers

/-- There is an answer for each point, whatever the answers are. -/
theorem length_answersAt (respond : σ → (q : Consult R n) → q.Answer × σ)
    (points : List (Vector R n)) (s : σ) :
    (answersAt respond points s).1.length = points.length := by
  induction points generalizing s with
  | nil => rfl
  | cons x xs ih => exact congrArg (· + 1) (ih _)

section Costs

variable [Scalar R] [Neg R]

theorem run_costAt (respond : σ → (q : Consult R n) → q.Answer × σ) (purpose : Purpose)
    (x : Vector R n) (memory : FirstFailure R) (s : σ) :
    (costAt purpose x memory).run respond s =
      ⟨some (costIn (respond s (.value purpose x)).1,
          memory.or (Consult.failure? (.value purpose x) (respond s (.value purpose x)).1)),
        (respond s (.value purpose x)).2,
        [.answered (.value purpose x) (respond s (.value purpose x)).1]⟩ := by
  rw [costAt, Dialogue.run_ask]
  cases (respond s (.value purpose x)).1 with
  | error error =>
      rw [Consult.failure?, ← FirstFailure.record_eq_or]
      rfl
  | ok v =>
      rw [Consult.failure?, Option.or_none]
      rfl

/-- **The run of a pass**: the values at all points are asked for, whatever the answers are. -/
theorem run_costsAt (respond : σ → (q : Consult R n) → q.Answer × σ) (points : List (Vector R n))
    (memory : FirstFailure R) (s : σ) :
    (costsAt points memory).run respond s =
      ⟨some ((answersAt respond points s).1.map costIn,
          memory.or (firstFailure? (passEvents points (answersAt respond points s).1))),
        (answersAt respond points s).2,
        passEvents points (answersAt respond points s).1⟩ := by
  -- each question leaves the respondent in another state and adds to the memory
  induction points generalizing memory s with
  | nil =>
      change (⟨some ([], memory), s, []⟩ : Exchange _ _ _ _) = ⟨some ([], memory.or none), s, []⟩
      rw [Option.or_none]
  | cons x xs ih =>
      have hfirst := run_costAt respond .difference x memory s
      rw [costsAt, Dialogue.run_bind, Exchange.andThen_of_result (by rw [hfirst]), hfirst]
      dsimp only
      rw [Dialogue.run_bind, Exchange.andThen_of_result (by rw [ih]), ih]
      simp [answersAt, passEvents, Event.failure?, Option.or_assoc, Dialogue.run]

end Costs

/-! ### Points and quotients by number -/

theorem getElem?_flatMap_pair {α β : Type} (first second : α → β) (list : List α) (i : ℕ) :
    (list.flatMap fun a => [first a, second a])[2 * i]? = list[i]?.map first ∧
      (list.flatMap fun a => [first a, second a])[2 * i + 1]? = list[i]?.map second := by
  induction list generalizing i with
  | nil => simp
  | cons a rest ih =>
      cases i with
      | zero => exact ⟨rfl, rfl⟩
      | succ i => exact ih i

theorem length_centralPoints [Add R] [Neg R] (h : R) (x : Vector R n) :
    (centralPoints h x).length = 2 * n := by
  simp [centralPoints, List.length_flatMap, Nat.mul_comm]

/-- A central pass looks above and below in each coordinate. -/
theorem getElem?_centralPoints [Add R] [Neg R] (h : R) (x : Vector R n) (i : Fin n) :
    (centralPoints h x)[2 * (i : ℕ)]? = some (shifted x i h) ∧
      (centralPoints h x)[2 * (i : ℕ) + 1]? = some (shifted x i (-h)) := by
  have hi : (List.finRange n)[(i : ℕ)]? = some i := by simp
  have hpair := getElem?_flatMap_pair (shifted x · h) (shifted x · (-h)) (List.finRange n) i
  rwa [hi] at hpair

theorem length_forwardPoints [Add R] (h : R) (x : Vector R n) :
    (forwardPoints h x).length = n + 1 := by
  simp [forwardPoints]

/-- A forward pass looks above in each coordinate, once it has looked at the point itself. -/
theorem getElem?_forwardPoints [Add R] (h : R) (x : Vector R n) (i : Fin n) :
    (forwardPoints h x)[(i : ℕ) + 1]? = some (shifted x i h) := by
  simp [forwardPoints]

theorem length_centralQuotients [Add R] [Sub R] [Div R] (h : R) (costs : List R) :
    (centralQuotients h costs).length = costs.length / 2 := by
  fun_induction centralQuotients h costs with
  | case1 above below rest ih =>
      simp only [List.length_cons, ih]
      omega
  | case2 costs hshort =>
      match costs, hshort with
      | [], _ => simp
      | [_], _ => simp
      | above :: below :: rest, hshort => exact absurd rfl (hshort above below rest)

theorem getElem?_centralQuotients [Add R] [Sub R] [Div R] (h : R) {costs : List R} {i : ℕ}
    {above below : R} (habove : costs[2 * i]? = some above)
    (hbelow : costs[2 * i + 1]? = some below) :
    (centralQuotients h costs)[i]? = some ((above - below) / (h + h)) := by
  fun_induction centralQuotients h costs generalizing i with
  | case1 a b rest ih =>
      cases i with
      | zero =>
          cases habove
          cases hbelow
          rfl
      | succ i => exact ih habove hbelow
  | case2 costs hshort =>
      match costs, hshort with
      | [], _ => cases hbelow
      | [_], _ => simp at hbelow
      | a :: b :: rest, hshort => exact absurd rfl (hshort a b rest)

/-! ### Vectors of quotients -/

section Differences

variable [Add R] [Sub R] [Div R] [Neg R]

/-- The entries of the vector are the central quotients of the values that were answered. -/
def CentralDifference (h : R) (x : Vector R n) (answers : List (Except (OptimizationError R) R))
    (g : Vector R n) : Prop :=
  ∀ i : Fin n, ∃ above below,
    ((centralPoints h x).zip answers)[2 * (i : ℕ)]? = some (shifted x i h, .ok above) ∧
      ((centralPoints h x).zip answers)[2 * (i : ℕ) + 1]? = some (shifted x i (-h), .ok below) ∧
        g.get i = (-above - -below) / (h + h)

/-- The entries of the vector are the forward quotients of the values that were answered. -/
def ForwardDifference (h : R) (x : Vector R n) (answers : List (Except (OptimizationError R) R))
    (g : Vector R n) : Prop :=
  ∃ base, ((forwardPoints h x).zip answers)[0]? = some (x, .ok base) ∧
    ∀ i : Fin n, ∃ above,
      ((forwardPoints h x).zip answers)[(i : ℕ) + 1]? = some (shifted x i h, .ok above) ∧
        g.get i = (-above - -base) / h

end Differences

theorem getElem?_zip_values {points : List (Vector R n)} {values : List R} {j : ℕ}
    {point : Vector R n} {v : R} :
    (points.zip (values.map (Except.ok (ε := OptimizationError R))))[j]? = some (point, .ok v) ↔
      points[j]? = some point ∧ values[j]? = some v := by
  simp [List.getElem?_zip_eq_some]

/-- A vector has the entries of a list of its length. -/
theorem toList_eq_iff {g : Vector R n} {list : List R} (hlen : list.length = n) :
    g.toList = list ↔ ∀ i : Fin n, list[(i : ℕ)]? = some (g.get i) := by
  constructor
  · rintro rfl i
    exact List.getElem?_eq_getElem (Nat.lt_of_lt_of_eq i.isLt hlen.symm)
  · intro h
    refine List.ext_getElem (by simp [hlen]) fun i hi hi' => ?_
    have hentry := h ⟨i, Nat.lt_of_lt_of_eq hi' hlen⟩
    rw [List.getElem?_eq_getElem hi', Option.some.injEq] at hentry
    exact hentry.symm

/-- The quotients of the costs are the entries of the one vector of some kind. -/
def MakeUp [Neg R] (quotients : List R → List R) (answers : List (Except (OptimizationError R) R))
    (IsDifference : Vector R n → Prop) : Prop :=
  ∀ values : List R, answers = values.map .ok →
    (quotients (values.map (-·))).length = n ∧
      ∀ g, IsDifference g ↔ g.toList = quotients (values.map (-·))

section Differences

variable [Add R] [Sub R] [Div R] [Neg R] {h : R} {x : Vector R n}
  {answers : List (Except (OptimizationError R) R)}

/-- The central quotients make up the central difference. -/
theorem makeUp_centralDifference (hlen : answers.length = 2 * n) :
    MakeUp (centralQuotients h) answers (CentralDifference h x answers) := by
  rintro values rfl
  rw [List.length_map] at hlen
  have hsize : (centralQuotients h (values.map (-·))).length = n := by
    rw [length_centralQuotients, List.length_map]
    omega
  have hquotient {i : ℕ} {above below : R} (habove : values[2 * i]? = some above)
      (hbelow : values[2 * i + 1]? = some below) :
      (centralQuotients h (values.map (-·)))[i]? = some ((-above - -below) / (h + h)) :=
    getElem?_centralQuotients h (by rw [List.getElem?_map, habove, Option.map_some])
      (by rw [List.getElem?_map, hbelow, Option.map_some])
  refine ⟨hsize, fun g => ?_⟩
  rw [toList_eq_iff hsize]
  refine forall_congr' fun i => ?_
  simp only [getElem?_zip_values, getElem?_centralPoints, true_and]
  constructor
  · rintro ⟨above, below, habove, hbelow, hg⟩
    rw [hquotient habove hbelow, hg]
  · intro hg
    have habove : values[2 * (i : ℕ)]? = some values[2 * (i : ℕ)] :=
      List.getElem?_eq_getElem (by omega)
    have hbelow : values[2 * (i : ℕ) + 1]? = some values[2 * (i : ℕ) + 1] :=
      List.getElem?_eq_getElem (by omega)
    rw [hquotient habove hbelow, Option.some.injEq] at hg
    exact ⟨_, _, habove, hbelow, hg.symm⟩

/-- The forward quotients make up the forward difference. -/
theorem makeUp_forwardDifference (hlen : answers.length = n + 1) :
    MakeUp (forwardQuotients h) answers (ForwardDifference h x answers) := by
  rintro values rfl
  rw [List.length_map] at hlen
  cases values with
  | nil => cases hlen
  | cons base values =>
      have hlen : values.length = n := Nat.succ.inj hlen
      have hsize : (forwardQuotients h ((base :: values).map (-·))).length = n := by
        simp [forwardQuotients, hlen]
      refine ⟨hsize, fun g => ?_⟩
      rw [toList_eq_iff hsize]
      simp only [ForwardDifference, getElem?_zip_values, getElem?_forwardPoints, true_and,
        List.getElem?_cons_succ]
      constructor
      · rintro ⟨b, ⟨-, hbase⟩, hentries⟩ i
        obtain rfl := Option.some.inj hbase
        obtain ⟨above, habove, hg⟩ := hentries i
        simp [forwardQuotients, habove, hg]
      · intro hg
        refine ⟨base, ⟨rfl, rfl⟩, fun i => ?_⟩
        have habove : values[(i : ℕ)]? = some values[(i : ℕ)] :=
          List.getElem?_eq_getElem (by omega)
        have hquotient := hg i
        simp only [forwardQuotients, List.map_cons, List.getElem?_map, habove, Option.map_some,
          Option.some.injEq] at hquotient
        exact ⟨_, habove, hquotient.symm⟩

end Differences

/-! ### The end of a pass -/

section Outcome

variable [Scalar R]

/-- The entry is not finite, and those in front of it are. -/
def FirstNonFinite (g : Vector R n) (i : Fin n) : Prop :=
  Scalar.isFinite (g.get i) = false ∧ ∀ j < i, Scalar.isFinite (g.get j) = true

theorem firstNonFinite?_toList_eq_none_iff {g : Vector R n} :
    firstNonFinite? g.toList = none ↔ ∀ i : Fin n, Scalar.isFinite (g.get i) = true := by
  rw [firstNonFinite?_eq_none_iff]
  constructor
  · intro h i
    exact h _ (List.getElem_mem (l := g.toList) (by simp))
  · intro h v hv
    obtain ⟨i, hi, rfl⟩ := List.getElem_of_mem hv
    exact h ⟨i, by simpa using hi⟩

theorem firstNonFinite?_toList_eq_some_iff {g : Vector R n} {index : ℕ} {v : R} :
    firstNonFinite? g.toList = some (index, v) ↔
      ∃ i : Fin n, FirstNonFinite g i ∧ index = i ∧ v = g.get i := by
  have hget (i : Fin n) : g.toList[(i : ℕ)]? = some (g.get i) :=
    (toList_eq_iff g.length_toList).1 rfl i
  rw [firstNonFinite?_eq_some_iff]
  constructor
  · rintro ⟨hv, hinfinite, hearlier⟩
    have hi : index < n := by simpa using (List.getElem?_eq_some_iff.1 hv).1
    obtain rfl := Option.some.inj (hv.symm.trans (hget ⟨index, hi⟩))
    exact ⟨⟨index, hi⟩, ⟨hinfinite, fun j hj => hearlier j hj _ (hget j)⟩, rfl, rfl⟩
  · rintro ⟨i, ⟨hinfinite, hearlier⟩, rfl, rfl⟩
    refine ⟨hget i, hinfinite, fun j hj v hv => ?_⟩
    have hjn : j < n := Nat.lt_trans hj i.isLt
    obtain rfl := Option.some.inj (hv.symm.trans (hget ⟨j, hjn⟩))
    exact hearlier ⟨j, hjn⟩ hj

/-- A gradient of the right length is checked for entries that are not finite alone. -/
theorem checkGradient_toArray (g : Vector R n) :
    checkGradient n g.toArray = match firstNonFinite? g.toList with
      | some (index, value) =>
        .error (.invalidGradient index value "Gradient elements must be finite.")
      | none => .ok g :=
  dif_pos g.size_toArray

theorem checkGradient_toArray_eq_ok_iff {g v : Vector R n} :
    checkGradient n g.toArray = .ok v ↔ v = g ∧ ∀ i : Fin n, Scalar.isFinite (g.get i) = true := by
  rw [checkGradient_toArray, ← firstNonFinite?_toList_eq_none_iff]
  cases firstNonFinite? g.toList with
  | none => simp [eq_comm]
  | some entry => simp

theorem checkGradient_toArray_eq_error_iff {g : Vector R n} {error : OptimizationError R} :
    checkGradient n g.toArray = .error error ↔ ∃ i : Fin n, FirstNonFinite g i ∧
      error = .invalidGradient i (g.get i) "Gradient elements must be finite." := by
  rw [checkGradient_toArray]
  cases hfirst : firstNonFinite? g.toList with
  | none =>
      have hfinite := firstNonFinite?_toList_eq_none_iff.1 hfirst
      constructor
      · exact nofun
      · rintro ⟨i, ⟨hinfinite, -⟩, -⟩
        cases (hfinite i).symm.trans hinfinite
  | some entry =>
      obtain ⟨index, v⟩ := entry
      constructor
      · rintro ⟨⟩
        obtain ⟨i, hi, rfl, rfl⟩ := firstNonFinite?_toList_eq_some_iff.1 hfirst
        exact ⟨i, hi, rfl⟩
      · rintro ⟨i, hi, rfl⟩
        have hentry := firstNonFinite?_toList_eq_some_iff.2 ⟨i, hi, rfl, rfl⟩
        cases hfirst.symm.trans hentry
        rfl

/-- A pass succeeds with a vector: nothing is wrong with its answers, and the vector is of the kind
that the pass is about and has finite entries. -/
structure PassSucceeds (IsDifference : Vector R n → Prop)
    (answers : List (Except (OptimizationError R) R)) (g : Vector R n) : Prop where
  unfailing : firstFault? answers = none
  difference : IsDifference g
  finite : ∀ i : Fin n, Scalar.isFinite (g.get i) = true

/-- A pass fails: with its first fault, or else for the first entry that is not finite. -/
inductive PassFails (IsDifference : Vector R n → Prop)
    (answers : List (Except (OptimizationError R) R)) : OptimizationError R → Prop
  | faulty {error : OptimizationError R} (first : firstFault? answers = some error) :
      PassFails IsDifference answers error
  | nonFinite {g : Vector R n} {i : Fin n} (unfailing : firstFault? answers = none)
      (difference : IsDifference g) (first : FirstNonFinite g i) :
      PassFails IsDifference answers
        (.invalidGradient i (g.get i) "Gradient elements must be finite.")

variable [Neg R]

/-- What comes out of a pass: its quotients as a gradient, if all its values are there. -/
def passOutcome (quotients : List R → List R) (answers : List (Except (OptimizationError R) R)) :
    Except (OptimizationError R) (Vector R n) :=
  (passValues (answers.map costIn)).bind fun costs => checkGradient n (quotients costs).toArray

variable {quotients : List R → List R} {answers : List (Except (OptimizationError R) R)}
  {IsDifference : Vector R n → Prop}

/-- A pass has a first fault, or else the one vector of its kind, which is checked. -/
theorem MakeUp.passOutcome_cases (h : MakeUp quotients answers IsDifference) :
    (∃ error, firstFault? answers = some error ∧
        passOutcome (n := n) quotients answers = .error error) ∨
      ∃ g : Vector R n, firstFault? answers = none ∧ (∀ g', IsDifference g' ↔ g' = g) ∧
        passOutcome quotients answers = checkGradient n g.toArray := by
  rcases passValues_map_costIn answers with ⟨error, hpass, hfirst⟩ | ⟨values, hvalues, hnone, hpass⟩
  · exact .inl ⟨error, hfirst, by rw [passOutcome, hpass]; rfl⟩
  · obtain ⟨hsize, hkind⟩ := h values hvalues
    refine .inr ⟨⟨(quotients (values.map (-·))).toArray, hsize⟩, hnone, fun g' => ?_, ?_⟩
    · rw [hkind, ← Vector.toList_inj]
      rfl
    · rw [passOutcome, hpass]
      rfl

/-- **A pass ends with a vector exactly if it succeeds with it.** -/
theorem MakeUp.passOutcome_eq_ok_iff (h : MakeUp quotients answers IsDifference)
    {g : Vector R n} :
    passOutcome quotients answers = .ok g ↔ PassSucceeds IsDifference answers g := by
  rcases h.passOutcome_cases with ⟨error, hfirst, hout⟩ | ⟨g₀, hnone, hkind, hout⟩
  · rw [hout]
    exact ⟨nofun, fun hs => by cases hfirst.symm.trans hs.unfailing⟩
  · rw [hout, checkGradient_toArray_eq_ok_iff]
    constructor
    · rintro ⟨rfl, hfinite⟩
      exact ⟨hnone, (hkind g).2 rfl, hfinite⟩
    · rintro ⟨-, hdifference, hfinite⟩
      obtain rfl := (hkind g).1 hdifference
      exact ⟨rfl, hfinite⟩

/-- **A pass ends with an error exactly if it fails with it.** -/
theorem MakeUp.passOutcome_eq_error_iff (h : MakeUp quotients answers IsDifference)
    {error : OptimizationError R} :
    passOutcome (n := n) quotients answers = .error error ↔
      PassFails IsDifference answers error := by
  rcases h.passOutcome_cases with ⟨first, hfirst, hout⟩ | ⟨g, hnone, hkind, hout⟩
  · rw [hout]
    constructor
    · rintro ⟨⟩
      exact .faulty hfirst
    · rintro (hfirst' | ⟨hnone, -, -⟩)
      · cases hfirst.symm.trans hfirst'
        rfl
      · cases hfirst.symm.trans hnone
  · rw [hout, checkGradient_toArray_eq_error_iff]
    constructor
    · rintro ⟨i, hi, rfl⟩
      exact .nonFinite hnone ((hkind g).2 rfl) hi
    · rintro (hfirst | @⟨g', i, -, hdifference, hi⟩)
      · cases hnone.symm.trans hfirst
      · obtain rfl := (hkind g').1 hdifference
        exact ⟨i, hi, rfl⟩

end Outcome

end MarkovLogic
