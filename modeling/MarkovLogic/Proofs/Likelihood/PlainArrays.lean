/-
**Evaluation on plain arrays.**

Once a likelihood has been made no index is checked again, so everything that an evaluation looks up
has to be covered by what was checked then.  To say so, the evaluation is written a second time on
plain arrays, of which nothing is known: each index and each length is checked where it is used, and
if one does not fit there is no result at all.  For a likelihood that was made there always is one,
at weights of any number and of any kind, undefined and infinite ones among them, and it is the one
of the likelihood.

Main definitions:

* `PlainLikelihood` — the data of a likelihood as plain arrays;
* `PlainLikelihood.sumRows?`, `PlainLikelihood.value?`, `PlainLikelihood.gradient?` — what is
  computed from them, with everything checked that is looked up;
* `Exhaustive.plain` — the arrays of a likelihood.

Main results:

* `Exhaustive.plain_sumRows`, `Exhaustive.plain_value`, `Exhaustive.plain_gradient` — **no index is
  out of range**;
* `Exhaustive.admitted_iff_evaluable` — **a likelihood is made of every table in order, and can be
  evaluated at all weights**.
-/
import MarkovLogic.Proofs.Likelihood.Tables

set_option autoImplicit false

namespace MarkovLogic

variable {R : Type} {n : ℕ}

/-- What is found for each element of a list is found for the list. -/
theorem mapM_map_eq_some {α β γ : Type} {f : β → Option γ} {g : α → β} {h : α → γ}
    (hf : ∀ a, f (g a) = some (h a)) (list : List α) :
    (list.map g).mapM f = some (list.map h) := by
  have hcomp : f ∘ g = fun a => pure (h a) := funext hf
  rw [List.mapM_map, hcomp, List.mapM_pure]
  rfl

/-! ### Plain arrays -/

/-- The data of a likelihood as plain arrays: the rows of the table, the number of its columns, the
indices of the training worlds, and the sum of their rows, computed in advance. -/
structure PlainLikelihood (R : Type) where
  rows : List (Array R)
  columns : ℕ
  training : List ℕ
  observed : Array R

namespace PlainLikelihood

/-- Two arrays entry by entry, which have to be of the same length. -/
def zipWith? (f : R → R → R) (a b : Array R) : Option (Array R) :=
  if a.size = b.size then some (Array.zipWith f a b) else none

/-- The entries of vectors fit. -/
theorem zipWith?_toArray (f : R → R → R) (a b : Vector R n) :
    zipWith? f a.toArray b.toArray = some (Vector.zipWith f a b).toArray := by
  rw [zipWith?, if_pos (by simp), Vector.toArray_zipWith]

variable [Zero R] [Add R]

/-- The rows with the given indices added up, each on top of those before it. -/
def sumRows? (rows : List (Array R)) (columns : ℕ) (indices : List ℕ) : Option (Array R) :=
  indices.foldlM (fun sum d => do zipWith? (· + ·) sum (← rows[d]?)) (Array.replicate columns 0)

variable [Mul R]

/-- The inner product, whose factors have to be of the same length. -/
def dot? (a b : Array R) : Option R :=
  (zipWith? (· * ·) a b).map fun terms => blockedSum terms.toList

/-- The sum of column `j` with each entry times the share of its row. -/
def weigh? (rows : List (Array R)) (columns : ℕ) (shares : Array R) (j : ℕ) : Option R := do
  let column ← rows.mapM (·[j]?)
  let terms ← zipWith? (· * ·) column.toArray shares
  return if columns = 1 then blockedSum terms.toList else runningSum terms.toList

variable [Sub R] [Scalar R] [ExpLog R] [DecimalText R]

/-- The scores of the worlds with the logarithm of the normalizer; weights of another number are
refused. -/
def scores? (p : PlainLikelihood R) (w : Array R) :
    Option (Except (OptimizationError R) (Array R × R)) :=
  if w.size ≠ p.columns then
    some (.error (LearningError.lengthMismatch .full p.columns w.size).toOptimization)
  else do
    let scores ← p.rows.mapM (dot? · w)
    return .ok (scores.toArray, logSumExp scores)

/-- The log-likelihood, or nothing if an index is out of range or two lengths do not fit. -/
def value? (p : PlainLikelihood R) (w : Array R) : Option (Except (OptimizationError R) R) := do
  match ← p.scores? w with
  | .error error => return .error error
  | .ok (scores, logZ) =>
    let terms ← p.training.mapM fun d => scores[d]?.map (· - logZ)
    return .ok (runningSum terms)

/-- The gradient, or nothing if an index is out of range or two lengths do not fit. -/
def gradient? (p : PlainLikelihood R) (w : Array R) :
    Option (Except (OptimizationError R) (Array R)) := do
  match ← p.scores? w with
  | .error error => return .error error
  | .ok (scores, logZ) =>
    let shares := scores.map fun s => ExpLog.exp (s - logZ)
    let expected ← (List.range p.columns).mapM (weigh? p.rows p.columns shares)
    let gradient ← zipWith? (fun o x => o - x * Scalar.ofCount p.training.length) p.observed
      expected.toArray
    return .ok gradient

end PlainLikelihood

namespace Exhaustive

variable [Scalar R] [Zero R] [Add R] (e : Exhaustive R n)

/-- The arrays of a likelihood. -/
def plain : PlainLikelihood R where
  rows := e.table.worlds.toList.map Vector.toArray
  columns := n
  training := e.training.map Fin.val
  observed := e.observed.toArray

open PlainLikelihood

/-- Each row is where its index says. -/
theorem getElem?_plain_rows (d : Fin e.table.worlds.size) :
    e.plain.rows[(d : ℕ)]? = some (e.table.row d).toArray := by
  simp [plain, WorldTable.row]

/-- **The rows that are added up are there**, and the sum is the one of the likelihood. -/
theorem plain_sumRows :
    sumRows? e.plain.rows e.plain.columns e.plain.training = some e.plain.observed := by
  have hfold : ∀ (ds : List (Fin e.table.worlds.size)) (sum : Vector R n),
      (ds.map Fin.val).foldlM (fun sum d => do zipWith? (· + ·) sum (← e.plain.rows[d]?))
          sum.toArray =
        some (ds.foldl (fun s d => Vector.zipWith (· + ·) s (e.table.row d)) sum).toArray := by
    intro ds
    induction ds with
    | nil => exact fun sum => rfl
    | cons d ds ih =>
        intro sum
        rw [List.map_cons, List.foldlM_cons, e.getElem?_plain_rows, List.foldl_cons, ← ih]
        simp only [Option.bind_eq_bind, Option.bind_some, zipWith?_toArray]
  have hzero : Array.replicate e.plain.columns (0 : R) = (Vector.replicate n 0).toArray := rfl
  rw [sumRows?, hzero]
  exact hfold e.training (Vector.replicate n 0)

variable [Mul R]

/-- The sum of a column finds an entry in each row and a share for each entry. -/
theorem plain_weigh (shares : Vector R e.table.worlds.size) (j : Fin n) :
    weigh? e.plain.rows e.plain.columns shares.toArray j = some (e.table.weigh shares j) := by
  have hentry (world : Vector R n) : world.toArray[(j : ℕ)]? = some world[j] := by simp
  have hcolumn : e.plain.rows.mapM (·[(j : ℕ)]?) =
      some (e.table.worlds.toList.map fun world => world[j]) := mapM_map_eq_some hentry _
  have harray : (e.table.worlds.toList.map fun world => world[j]).toArray =
      (e.table.worlds.toVector.map fun world => world[j]).toArray := by
    rw [← Array.toList_map]
    rfl
  have hterms : (Vector.zipWith (· * ·) (e.table.worlds.toVector.map fun world => world[j])
      shares).toArray.toList =
        List.zipWith (fun world q => world[j] * q) e.table.worlds.toList shares.toList := by
    rw [Vector.toArray_zipWith, Array.toList_zipWith, ← harray, List.zipWith_map_left]
    rfl
  rw [weigh?, hcolumn]
  simp only [Option.bind_eq_bind, Option.bind_some, harray, zipWith?_toArray]
  rw [hterms]
  rfl

variable [Sub R] [ExpLog R] [DecimalText R]

/-- **Each row has an entry for each weight.** -/
theorem plain_scores (w : Vector R n) :
    e.plain.scores? w.toArray =
      some (.ok ((e.table.scores w).toArray, logSumExp (e.table.scores w).toList)) := by
  have hdot (world : Vector R n) : dot? world.toArray w.toArray = some (Arrow.dot world w) := by
    rw [dot?, zipWith?_toArray, Arrow.dot, Option.map_some, Vector.toArray_zipWith,
      Array.toList_zipWith]
    rfl
  have hscores : e.plain.rows.mapM (dot? · w.toArray) = some (e.table.scores w).toList := by
    refine (mapM_map_eq_some (f := fun row => dot? row w.toArray) hdot e.table.worlds.toList).trans
      (congrArg some ?_)
    rw [WorldTable.scores, Vector.toList_map]
    rfl
  have hsize : ¬w.toArray.size ≠ e.plain.columns := by simp [plain]
  rw [scores?, if_neg hsize, hscores]
  simp only [Option.bind_eq_bind, Option.bind_some]
  rfl

/-- Weights of another number are refused before anything is looked up. -/
theorem plain_scores_of_size {w : Array R} (hw : w.size ≠ n) :
    e.plain.scores? w = some (.error (.pointLength n w.size)) :=
  if_pos hw

/-- **No index is out of range when the value is computed.** -/
theorem plain_value (w : Array R) : e.plain.value? w = some (e.objective.value w) := by
  by_cases hw : w.size = n
  · obtain ⟨w, rfl⟩ := exists_toArray hw
    let logZ := logSumExp (e.table.scores w).toList
    let term? (d : ℕ) : Option R := ((e.table.scores w).toArray[d]?).map (· - logZ)
    have hterm (d : Fin e.table.worlds.size) : term? d = some ((e.table.scores w)[d] - logZ) := by
      simp [term?]
    have hterms : e.plain.training.mapM term? =
        some (e.training.map fun d => (e.table.scores w)[d] - logZ) :=
      mapM_map_eq_some (f := term?) hterm e.training
    rw [value?, e.plain_scores w, e.objective_value w]
    simp only [Option.bind_eq_bind, Option.bind_some]
    rw [hterms]
    rfl
  · rw [value?, e.plain_scores_of_size hw, e.objective_value_of_size hw]
    rfl

/-- **Nor when the gradient is.** -/
theorem plain_gradient (w : Array R) : e.plain.gradient? w = some (e.objective.gradient w) := by
  by_cases hw : w.size = n
  · obtain ⟨w, rfl⟩ := exists_toArray hw
    have hexpected (shares : Vector R e.table.worlds.size) :
        (List.range e.plain.columns).mapM (weigh? e.plain.rows e.plain.columns shares.toArray) =
          some (Vector.ofFn (e.table.weigh shares)).toList := by
      have hrange : List.range e.plain.columns = (List.finRange n).map Fin.val := by
        rw [List.map_coe_finRange_eq_range]
        rfl
      rw [hrange, mapM_map_eq_some (e.plain_weigh shares), Vector.toList_ofFn, List.ofFn_eq_map]
    rw [gradient?, e.plain_scores w, e.objective_gradient w]
    simp only [Option.bind_eq_bind, Option.bind_some, ← Vector.toArray_map]
    rw [hexpected]
    have hobserved : e.plain.observed = e.observed.toArray := rfl
    have hlength : e.plain.training.length = e.training.length := List.length_map Fin.val
    simp only [Option.bind_some, Vector.toArray_toList, hobserved, hlength, zipWith?_toArray]
    rfl
  · rw [gradient?, e.plain_scores_of_size hw, e.objective_gradient_of_size hw]
    rfl

/-- **A likelihood is made of every table in order, and can then be evaluated at all weights.**  Any
other table is refused with the error of its flaw.  What was made adds up the rows of the training
worlds, column by column from left to right.  Whatever weights it is given, no index is out of range
and no lengths fail to fit: there is a value, and a gradient with an entry for each column, unless
the weights are of another number than the columns, which is then the error. -/
theorem admitted_iff_evaluable (t : WorldTable R n) (training : List ℕ) :
    ((∃ e, make t training = .ok e) ↔ Admits t training) ∧
    (∀ error, make t training = .error error ↔ Flaw t training error) ∧
    ∀ e, make t training = .ok e →
      e.plain.rows = t.worlds.toList.map Vector.toArray ∧ e.plain.training = training ∧
      sumRows? e.plain.rows n training = some e.observed.toArray ∧
      (∀ j : Fin n, ∃ column, training.mapM (fun d => e.plain.rows[d]?.bind (·[(j : ℕ)]?)) =
        some column ∧ e.observed.get j = runningSum column) ∧
      ∀ w : Array R,
        e.plain.value? w = some (e.objective.value w) ∧
        e.plain.gradient? w = some (e.objective.gradient w) ∧
        if w.size = n then
          (∃ v, e.objective.value w = .ok v) ∧ ∃ g, e.objective.gradient w = .ok g ∧ g.size = n
        else
          e.objective.value w = .error (.pointLength n w.size) ∧
            e.objective.gradient w = .error (.pointLength n w.size) := by
  refine ⟨exists_make_iff, fun error => make_eq_error_iff, fun e he => ?_⟩
  obtain ⟨positions, observedSome, finite, rfl, rfl⟩ := exists_of_make he
  refine ⟨rfl, rfl, plain_sumRows _, fun j => ?_, fun w => ?_⟩
  · refine ⟨_, ?_, get_observed_eq_runningSum _ j⟩
    refine mapM_map_eq_some (fun d => ?_) positions
    rw [getElem?_plain_rows]
    simp [Vector.get_eq_getElem]
  · refine ⟨plain_value _ w, plain_gradient _ w, ?_⟩
    split
    · rename_i hw
      obtain ⟨w, rfl⟩ := exists_toArray hw
      exact ⟨⟨_, objective_value _ w⟩, _, objective_gradient _ w, Vector.size_toArray _⟩
    · rename_i hw
      exact ⟨objective_value_of_size _ hw, objective_gradient_of_size _ hw⟩

/-- Two formulas in two worlds. -/
def twoWorlds : WorldTable Float 2 := ⟨#[#v[0, 1], #v[1, 1]]⟩

/-- With one of the worlds observed twice the table is admitted, and the likelihood has a value and
a gradient at weights that are no numbers, and none at three weights.  With a world beyond the table
it is refused, and the first such world is named. -/
theorem admitted_iff_evaluable_twoWorlds :
    (∃ e, make twoWorlds [1, 0, 1] = .ok e ∧ e.observed = #v[2, 3] ∧
      (∃ v, e.objective.value #[0 / 0, 1 / 0] = .ok v) ∧
      (∃ g, e.objective.gradient #[0 / 0, 1 / 0] = .ok g ∧ g.size = 2) ∧
      e.objective.value #[0, 0, 0] = .error (.pointLength 2 3)) ∧
    make twoWorlds [1, 2, 5] =
      .error (.invalidObjectiveData "training world 2" "index outside the world set") := by
  obtain ⟨hmake, -, hevaluate⟩ := admitted_iff_evaluable twoWorlds [1, 0, 1]
  obtain ⟨-, hrefused, -⟩ := admitted_iff_evaluable twoWorlds [1, 2, 5]
  have hfinite : ∀ x j : Fin 2, Scalar.isFinite ((twoWorlds.row x).get j) = true := by decide
  obtain ⟨e, he⟩ := hmake.2 ⟨by decide, by simp, by decide, hfinite⟩
  obtain ⟨-, -, -, -, hall⟩ := hevaluate e he
  have hobserved : e.observed = #v[2, 3] := by
    obtain ⟨positions, observedSome, finite, hpositions, rfl⟩ := exists_of_make he
    have hsame : positions = ([1, 0, 1] : List (Fin 2)) :=
      List.map_injective_iff.2 Fin.val_injective hpositions
    subst hsame
    refine Vector.ext fun j hj => (get_observed_eq_runningSum _ ⟨j, hj⟩).trans ?_
    obtain rfl | rfl : j = 0 ∨ j = 1 := by omega
    · change runningSum [1, 0, 1] = (2 : Float)
      decide +kernel
    · change runningSum [1, 1, 1] = (3 : Float)
      decide +kernel
  have htwo := (hall #[0 / 0, 1 / 0]).2.2
  have hthree := (hall #[0, 0, 0]).2.2
  rw [if_pos (by rfl)] at htwo
  rw [if_neg (by decide)] at hthree
  refine ⟨⟨e, he, hobserved, htwo.1, htwo.2, hthree.1⟩, (hrefused _).2 ?_⟩
  have hlist : [1, 2, 5] = [1] ++ 2 :: [5] := rfl
  exact .notInTable (by decide) hlist (by decide) (by decide)

end Exhaustive

end MarkovLogic
