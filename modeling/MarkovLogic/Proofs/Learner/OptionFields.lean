/-
**Options are independent of each other.**

To set one option is to build the options anew from a value that was read and from what was there,
and all of it is checked again.  So whether a text is accepted might depend on what was set before.
It does not: what was there has passed the same checks.  The setting of an option is therefore a
reading, which looks at the text alone, followed by a write to one field, and of several settings
the last one for each key wins, whatever stands between them.

Main definitions:

* `OptionKey.Value`, `LearnOptions.get?`, `LearnOptions.put` — the field of a key;
* `OptionKey.read` — the value that a text sets, or why it is refused;
* `Reordering` — the same settings in another order, those for the same name in the order they had.

Main results:

* `LearnOptions.setKey_eq` — **to set an option is to read the text and write one field**;
* `LearnOptions.get?_setAll` — **the last setting of a key wins**;
* `LearnOptions.Reachable.independent` — the options are independent of each other.
-/
import MarkovLogic.Proofs.Learner.ReachableOptions

set_option autoImplicit false

namespace MarkovLogic

/-! ### Names -/

/-- The name of a key. -/
def OptionKey.name : OptionKey → String
  | initialWeights => "initial_weights"
  | gradientTolerance => "gtol"
  | costTolerance => "ftol"
  | iterationCap => "maxiter"
  | lineSearch => "line_search"
  | memory => "lbfgs_mem"
  | verbose => "verbose"

/-- A key is found by its name and by nothing else. -/
theorem OptionKey.ofName?_eq_some_iff {name : String} {key : OptionKey} :
    ofName? name = some key ↔ name = key.name := by
  constructor
  · intro h
    unfold ofName? at h
    split at h
    all_goals first | (obtain rfl := Option.some.inj h; rfl) | cases h
  · rintro rfl
    cases key <;> rfl

theorem OptionKey.name_injective {key key' : OptionKey} (h : key.name = key'.name) : key = key' :=
  Option.some.inj ((ofName?_eq_some_iff.2 rfl).symm.trans (ofName?_eq_some_iff.2 h))

/-! ### Fields -/

/-- What the field of a key holds. -/
@[reducible] def OptionKey.Value : OptionKey → Type
  | initialWeights | verbose => Bool
  | gradientTolerance | costTolerance => Float
  | iterationCap | memory => Nat
  | lineSearch => LineSearch

namespace LearnOptions

/-- The value in the field of a key, unless it is left open. -/
def get? (o : LearnOptions) : (key : OptionKey) → Option key.Value
  | .initialWeights => some o.useInitialWeights
  | .gradientTolerance => o.settings.tolerances.gradient
  | .costTolerance => o.settings.tolerances.cost
  | .iterationCap => o.settings.tolerances.iterations
  | .lineSearch => some o.settings.lineSearch
  | .memory => o.settings.memory
  | .verbose => some o.settings.verbose

/-- The options with a value in the field of a key. -/
def put (o : LearnOptions) : (key : OptionKey) → key.Value → LearnOptions
  | .initialWeights, value => { o with useInitialWeights := value }
  | .gradientTolerance, tolerance =>
    ⟨o.useInitialWeights, { o.settings with
      tolerances := { o.settings.tolerances with gradient := some tolerance } }⟩
  | .costTolerance, tolerance =>
    ⟨o.useInitialWeights, { o.settings with
      tolerances := { o.settings.tolerances with cost := some tolerance } }⟩
  | .iterationCap, cap =>
    ⟨o.useInitialWeights, { o.settings with
      tolerances := { o.settings.tolerances with iterations := some cap } }⟩
  | .lineSearch, search => ⟨o.useInitialWeights, { o.settings with lineSearch := search }⟩
  | .memory, pairs => ⟨o.useInitialWeights, { o.settings with memory := some pairs }⟩
  | .verbose, value => ⟨o.useInitialWeights, { o.settings with verbose := value }⟩

variable (o : LearnOptions)

@[simp] theorem get?_put_self (key : OptionKey) (value : key.Value) :
    (o.put key value).get? key = some value := by
  cases key <;> rfl

theorem get?_put_of_ne {key other : OptionKey} (h : other ≠ key) (value : key.Value) :
    (o.put key value).get? other = o.get? other := by
  cases key <;> cases other <;> first | rfl | exact absurd rfl h

/-- Options with the same fields are the same. -/
theorem ext_get? {o o' : LearnOptions} (h : ∀ key, o.get? key = o'.get? key) : o = o' := by
  obtain ⟨initial, ⟨gradient, cost, iterations⟩, search, verbose, memory⟩ := o
  obtain ⟨initial', ⟨gradient', cost', iterations'⟩, search', verbose', memory'⟩ := o'
  obtain rfl : initial = initial' := Option.some.inj (h .initialWeights)
  obtain rfl : gradient = gradient' := h .gradientTolerance
  obtain rfl : cost = cost' := h .costTolerance
  obtain rfl : iterations = iterations' := h .iterationCap
  obtain rfl : search = search' := Option.some.inj (h .lineSearch)
  obtain rfl : verbose = verbose' := Option.some.inj (h .verbose)
  obtain rfl : memory = memory' := h .memory
  rfl

end LearnOptions

/-! ### Readings -/

/-- A count that has to be positive. -/
def positiveCount (count : Nat) (fault : OptimizationError Float) :
    Except (LearningError Float) Nat :=
  if count = 0 then .error (.optimization fault) else .ok count

/-- The value that a text sets for a key, or why it is refused.  No other option is looked at. -/
def OptionKey.read (name text : String) : (key : OptionKey) → Except (LearningError Float) key.Value
  | .initialWeights | .verbose => LearnOptions.readValue Text.truth? name text
  | .gradientTolerance => do
    let tolerance ← LearnOptions.readValue Decimal.read? name text
    (checkGradientTolerance (some tolerance)).mapError .optimization
    return tolerance
  | .costTolerance => do
    let tolerance ← LearnOptions.readValue Decimal.read? name text
    (checkCostTolerance (some tolerance)).mapError .optimization
    return tolerance
  | .iterationCap => do
    let cap ← LearnOptions.readValue Text.count? name text
    positiveCount cap (.invalidIterationCap 0 "Maximum iterations must be greater than zero.")
  | .lineSearch => (LineSearch.ofName text).mapError .optimization
  | .memory => do
    let pairs ← LearnOptions.readValue Text.count? name text
    positiveCount pairs (.invalidMemory 0 "L-BFGS memory must be greater than zero.")

/-- Tolerances of which that on the gradient is given are checked one after the other. -/
theorem Tolerances.make_of_isSome {gradient cost : Option Float} {iterations : Option Nat}
    (h : gradient.isSome = true) :
    make gradient cost iterations =
      checkCostTolerance cost >>= fun _ => checkGradientTolerance gradient >>= fun _ =>
        if iterations = some 0 then
          .error (.invalidIterationCap 0 "Maximum iterations must be greater than zero.")
        else .ok ⟨gradient, cost, iterations⟩ := by
  cases gradient with
  | none => cases h
  | some tolerance => rfl

theorem ne_some_zero_of {count : Option Nat} (h : ∀ k, count = some k → 1 ≤ k) :
    count ≠ some 0 :=
  fun hzero => absurd (h 0 hzero) (by omega)

namespace LearnOptions

variable {o : LearnOptions}

/-- A tolerance that was read is set if it passes its check, everything else being in order. -/
theorem bind_withTolerances_eq {gradient cost : Float → Option Float} {iterations : Option Nat}
    {invalid : Float → String → OptimizationError Float}
    (hgiven : ∀ tolerance, (gradient tolerance).isSome = true) (hiterations : iterations ≠ some 0)
    (hchecks : ∀ tolerance,
      (checkCostTolerance (cost tolerance) >>= fun _ =>
        checkGradientTolerance (gradient tolerance)) = checkTolerance invalid (some tolerance))
    (read : Except (LearningError Float) Float) :
    (read >>= fun tolerance =>
      o.withTolerances (gradient tolerance) (cost tolerance) iterations) =
    (read >>= fun tolerance =>
      (checkTolerance invalid (some tolerance)).mapError .optimization >>= fun _ =>
        pure tolerance).map fun tolerance =>
          ⟨o.useInitialWeights, { o.settings with
            tolerances := ⟨gradient tolerance, cost tolerance, iterations⟩ }⟩ := by
  cases read with
  | error error => rfl
  | ok tolerance =>
      change o.withTolerances _ _ _ =
        ((checkTolerance invalid (some tolerance)).mapError _ >>= fun _ => pure tolerance).map _
      rw [withTolerances, Tolerances.make_of_isSome (hgiven tolerance), ← hchecks,
        if_neg hiterations]
      cases checkCostTolerance (cost tolerance) with
      | error error => rfl
      | ok _ => cases checkGradientTolerance (gradient tolerance) <;> rfl

/-- A count that was read is set if it is positive, everything else being in order. -/
theorem bind_positiveCount_eq {set : Nat → Except (LearningError Float) LearnOptions}
    {put : Nat → LearnOptions} {fault : OptimizationError Float}
    (hzero : set 0 = .error (.optimization fault)) (hset : ∀ count ≠ 0, set count = .ok (put count))
    (read : Except (LearningError Float) Nat) :
    (read >>= set) = (read >>= fun count => positiveCount count fault).map put := by
  cases read with
  | error error => rfl
  | ok count =>
      change set count = (positiveCount count fault).map put
      rw [positiveCount]
      split
      · rename_i hcount
        rw [hcount, hzero]
        rfl
      · rename_i hcount
        rw [hset count hcount]
        rfl

/-- **To set the option of a key is to read the text and write one field**, if what is there passes
the checks. -/
theorem setKey_eq (ho : o.settings.Valid) (name text : String) (key : OptionKey) :
    o.setKey name text key = (key.read name text).map (o.put key) := by
  have hcost : checkCostTolerance o.settings.tolerances.cost = .ok () :=
    checkTolerance_eq_ok_iff.2 ho.cost
  have hiterations := ne_some_zero_of ho.iterations
  obtain ⟨tolerance, htolerance, hpositive⟩ := ho.gradient
  have hgiven : o.settings.tolerances.gradient.isSome = true := by rw [htolerance]; rfl
  have hgradient : checkGradientTolerance o.settings.tolerances.gradient = .ok () :=
    checkTolerance_eq_ok_iff.2 fun _ h => Option.some.inj (htolerance.symm.trans h) ▸ hpositive
  cases key with
  | initialWeights | verbose =>
      rw [setKey, OptionKey.read]
      cases readValue Text.truth? name text <;> rfl
  | lineSearch =>
      rw [setKey, OptionKey.read]
      cases LineSearch.ofName text <;> rfl
  | gradientTolerance =>
      refine bind_withTolerances_eq (fun _ => rfl) hiterations (fun read => ?_) _
      rw [hcost]
      rfl
  | costTolerance =>
      refine bind_withTolerances_eq (fun _ => hgiven) hiterations (fun read => ?_) _
      rw [hgradient]
      exact bind_pure _
  | iterationCap =>
      refine bind_positiveCount_eq ?_ (fun cap hcap => ?_) _
      · rw [withTolerances, Tolerances.make_of_isSome hgiven, hcost, hgradient]
        rfl
      · rw [withTolerances, Tolerances.make_of_isSome hgiven, hcost, hgradient,
          if_neg (by simpa using hcap)]
        rfl
  | memory =>
      refine bind_positiveCount_eq rfl (fun pairs hpairs => ?_) _
      rw [Settings.make, if_neg (by simpa using hpairs)]
      rfl

theorem set_eq_ok_iff (ho : o.settings.Valid) {name text : String} {next : LearnOptions} :
    o.set name text = .ok next ↔ ∃ key value, OptionKey.ofName? name = some key ∧
      key.read name text = .ok value ∧ next = o.put key value := by
  rw [set]
  cases OptionKey.ofName? name with
  | none => exact ⟨nofun, nofun⟩
  | some key =>
      dsimp only
      rw [setKey_eq ho, map_eq_ok_iff]
      constructor
      · rintro ⟨value, hread, rfl⟩
        exact ⟨key, value, rfl, hread, rfl⟩
      · rintro ⟨_, value, ⟨⟩, hread, rfl⟩
        exact ⟨value, hread, rfl⟩

theorem set_eq_error_iff (ho : o.settings.Valid) {name text : String}
    {error : LearningError Float} :
    o.set name text = .error error ↔
      OptionKey.ofName? name = none ∧ error = .invalidOption name text "unknown option" ∨
        ∃ key, OptionKey.ofName? name = some key ∧ key.read name text = .error error := by
  rw [set]
  cases OptionKey.ofName? name with
  | none => simp [eq_comm]
  | some key =>
      dsimp only
      rw [setKey_eq ho]
      cases hread : key.read name text with
      | error e => simp [Except.map, hread]
      | ok value => simp [Except.map, hread]

/-- What an accepted option sets, and that all else stays as it is. -/
theorem get?_of_set {next : LearnOptions} {name text : String} (ho : o.settings.Valid)
    (h : o.set name text = .ok next) :
    ∃ key value, name = key.name ∧ key.read name text = .ok value ∧
      next.get? key = some value ∧ ∀ other, other ≠ key → next.get? other = o.get? other := by
  obtain ⟨key, value, hkey, hread, rfl⟩ := (set_eq_ok_iff ho).1 h
  exact ⟨key, value, OptionKey.ofName?_eq_some_iff.1 hkey, hread, o.get?_put_self key value,
    fun other hother => o.get?_put_of_ne hother value⟩

end LearnOptions

/-! ### Settings one after the other -/

/-- The text of the last setting for a name. -/
def lastText? (name : String) (params : List (String × String)) : Option String :=
  (params.filter (·.1 = name)).getLast?.map (·.2)

theorem lastText?_cons (name : String) (param : String × String) (params : List (String × String)) :
    lastText? name (param :: params) =
      (lastText? name params).or (if param.1 = name then some param.2 else none) := by
  rw [lastText?, lastText?]
  by_cases h : param.1 = name
  · rw [List.filter_cons_of_pos (by simpa using h), if_pos h, List.getLast?_cons]
    cases (params.filter (·.1 = name)).getLast? <;> rfl
  · rw [List.filter_cons_of_neg (by simpa using h), if_neg h, Option.or_none]

theorem mem_of_lastText? {name text : String} {params : List (String × String)}
    (h : lastText? name params = some text) : (name, text) ∈ params := by
  obtain ⟨⟨n, t⟩, hlast, rfl⟩ := Option.map_eq_some_iff.1 h
  obtain ⟨hmem, hname⟩ := List.mem_filter.1 (List.mem_of_getLast? hlast)
  obtain rfl : n = name := by simpa using hname
  exact hmem

/-- The same settings in another order, those for the same name in the order they had. -/
structure Reordering (params params' : List (String × String)) : Prop where
  perm : params'.Perm params
  order (name : String) : params'.filter (·.1 = name) = params.filter (·.1 = name)

theorem Reordering.lastText?_eq {params params' : List (String × String)}
    (h : Reordering params params') (name : String) :
    lastText? name params' = lastText? name params := by
  rw [lastText?, lastText?, h.order]

namespace LearnOptions

variable {o : LearnOptions}

/-- **The last setting of a key wins**, and without one the field stays as it is. -/
theorem get?_setAll {last : LearnOptions} {params : List (String × String)}
    (ho : o.settings.Valid) (h : o.setAll params = .ok last) (key : OptionKey) :
    last.get? key = match lastText? key.name params with
      | none => o.get? key
      | some text => (key.read key.name text).toOption := by
  induction params generalizing o with
  | nil =>
      cases h
      rfl
  | cons param rest ih =>
      obtain ⟨next, hset, hrest⟩ := bind_eq_ok_iff.1 h
      obtain ⟨key', value, hname, hread, hself, hother⟩ := get?_of_set ho hset
      rw [ih (valid_of_set ho hset) hrest, lastText?_cons]
      cases lastText? key.name rest with
      | some text => rfl
      | none =>
          rw [Option.none_or]
          by_cases hkey : key = key'
          · subst hkey
            rw [if_pos hname]
            dsimp only
            rw [hself, ← hname, hread]
            rfl
          · have hne : param.1 ≠ key.name := fun h =>
              hkey (OptionKey.name_injective (h.symm.trans hname))
            rw [if_neg hne, hother key hkey]

/-- What is accepted once is always accepted. -/
theorem exists_set {o' : LearnOptions} {name text : String} (ho : o.settings.Valid)
    (ho' : o'.settings.Valid) (h : ∃ next, o.set name text = .ok next) :
    ∃ next, o'.set name text = .ok next := by
  obtain ⟨next, hset⟩ := h
  obtain ⟨key, value, hkey, hread, -⟩ := (set_eq_ok_iff ho).1 hset
  exact ⟨_, (set_eq_ok_iff ho').2 ⟨key, value, hkey, hread, rfl⟩⟩

/-- Settings that are accepted one by one are accepted one after the other. -/
theorem exists_setAll {params : List (String × String)} (ho : o.settings.Valid)
    (h : ∀ param ∈ params, ∃ next, o.set param.1 param.2 = .ok next) :
    ∃ last, o.setAll params = .ok last := by
  induction params generalizing o with
  | nil => exact ⟨o, rfl⟩
  | cons param rest ih =>
      obtain ⟨next, hset⟩ := h param List.mem_cons_self
      have hnext := valid_of_set ho hset
      obtain ⟨last, hlast⟩ := ih hnext fun other hother =>
        exists_set ho hnext (h other (List.mem_cons_of_mem _ hother))
      exact ⟨last, bind_eq_ok_iff.2 ⟨next, hset, hlast⟩⟩

/-- A different order among different names ends with the same options. -/
theorem setAll_reordering {last : LearnOptions} {params params' : List (String × String)}
    (ho : o.settings.Valid) (h : ∀ param ∈ params, ∃ next, o.set param.1 param.2 = .ok next)
    (hlast : o.setAll params = .ok last) (horder : Reordering params params') :
    o.setAll params' = .ok last := by
  obtain ⟨last', hlast'⟩ := exists_setAll ho fun param hparam =>
    h param (horder.perm.mem_iff.1 hparam)
  have hsame : last' = last := ext_get? fun key => by
    rw [get?_setAll ho hlast', get?_setAll ho hlast, horder.lastText?_eq]
  rw [hlast', hsame]

/-- Setting an option ends alike with both: with the same error, or with one field changed, which is
that of the key, to the same value. -/
structure SetAlike (name text : String) (o o' : LearnOptions) : Prop where
  error (error : LearningError Float) :
    o.set name text = .error error ↔ o'.set name text = .error error
  ok (next : LearnOptions) (h : o.set name text = .ok next) :
    ∃ next' key value, o'.set name text = .ok next' ∧ name = key.name ∧
      next.get? key = some value ∧ next'.get? key = some value ∧
      ∀ other, other ≠ key → next.get? other = o.get? other ∧ next'.get? other = o'.get? other

theorem setAlike {o' : LearnOptions} (ho : o.settings.Valid) (ho' : o'.settings.Valid)
    (name text : String) : SetAlike name text o o' := by
  refine ⟨fun error => ?_, fun next hset => ?_⟩
  · rw [set_eq_error_iff ho, set_eq_error_iff ho']
  · obtain ⟨key, value, hkey, hread, rfl⟩ := (set_eq_ok_iff ho).1 hset
    exact ⟨o'.put key value, key, value, (set_eq_ok_iff ho').2 ⟨key, value, hkey, hread, rfl⟩,
      OptionKey.ofName?_eq_some_iff.1 hkey, o.get?_put_self key value, o'.get?_put_self key value,
      fun other hother => ⟨o.get?_put_of_ne hother value, o'.get?_put_of_ne hother value⟩⟩

/-- **Options are independent of each other, and the last setting wins.**  An option is set alike
whatever was set before.  So settings that are accepted on their own are accepted one after the
other, in any order that keeps that of the settings for the same name the end is the same, and in
the end each field holds what its last setting alone sets, or what it held before. -/
theorem Reachable.independent {o : LearnOptions} (ho : o.Reachable) :
    (∀ o' : LearnOptions, o'.Reachable → ∀ name text, SetAlike name text o o') ∧
      ∀ params : List (String × String),
        (∀ param ∈ params, ∃ next, o.set param.1 param.2 = .ok next) →
          ∃ last, o.setAll params = .ok last ∧
            (∀ params', Reordering params params' → o.setAll params' = .ok last) ∧
            ∀ key : OptionKey, match lastText? key.name params with
              | none => last.get? key = o.get? key
              | some text => ∃ next, o.set key.name text = .ok next ∧
                  last.get? key = next.get? key := by
  refine ⟨fun o' ho' name text => setAlike ho.valid ho'.valid name text, fun params hparams => ?_⟩
  obtain ⟨last, hlast⟩ := exists_setAll ho.valid hparams
  refine ⟨last, hlast, fun params' => setAll_reordering ho.valid hparams hlast, fun key => ?_⟩
  have hfield := get?_setAll ho.valid hlast key
  cases htext : lastText? key.name params with
  | none =>
      rw [htext] at hfield
      exact hfield
  | some text =>
      rw [htext] at hfield
      obtain ⟨next, hset⟩ := hparams _ (mem_of_lastText? htext)
      obtain ⟨key', value, hname, hread, hself, -⟩ := get?_of_set ho.valid hset
      obtain rfl := OptionKey.name_injective hname
      refine ⟨next, hset, ?_⟩
      dsimp only at hfield
      rw [hfield, hself, hread]
      rfl

/-- Two tolerances on the gradient with a cap between them, and the same with the cap in front. -/
theorem independent_twoTolerances :
    ∃ last, standard.setAll [("gtol", "0.5"), ("maxiter", "3"), ("gtol", "0.25")] = .ok last ∧
      standard.setAll [("maxiter", "3"), ("gtol", "0.5"), ("gtol", "0.25")] = .ok last ∧
      last.get? .gradientTolerance = some 0.25 ∧ last.get? .iterationCap = some 3 ∧
      last.get? .costTolerance = none := by
  have hcoarse : ((standard.set "gtol" "0.5").toOption.any fun _ => true) = true := by
    decide +kernel
  have hcap : ((standard.set "maxiter" "3").toOption.any fun next =>
      decide (next.get? .iterationCap = some 3)) = true := by
    decide +kernel
  have hfine : ((standard.set "gtol" "0.25").toOption.any fun next =>
      decide (next.get? .gradientTolerance = some 0.25)) = true := by
    decide +kernel
  obtain ⟨coarse, hcoarse, -⟩ := exists_ok_of_any hcoarse
  obtain ⟨capped, hcapped, hcap⟩ := exists_ok_of_any hcap
  obtain ⟨fine, hfine, htolerance⟩ := exists_ok_of_any hfine
  obtain ⟨-, hall⟩ := Reachable.standard.independent
  obtain ⟨last, hlast, horder, hfields⟩ :=
    hall [("gtol", "0.5"), ("maxiter", "3"), ("gtol", "0.25")] (by
      simp only [List.mem_cons, List.not_mem_nil, or_false]
      rintro param (rfl | rfl | rfl)
      · exact ⟨coarse, hcoarse⟩
      · exact ⟨capped, hcapped⟩
      · exact ⟨fine, hfine⟩)
  have hreordering : Reordering [("gtol", "0.5"), ("maxiter", "3"), ("gtol", "0.25")]
      [("maxiter", "3"), ("gtol", "0.5"), ("gtol", "0.25")] := by
    refine ⟨.swap _ _ _, fun name => ?_⟩
    by_cases hname : "maxiter" = name
    · subst hname
      rfl
    · simp [List.filter_cons, hname]
  refine ⟨last, hlast, horder _ hreordering, ?_, ?_, ?_⟩
  · obtain ⟨next, hnext, hvalue⟩ := hfields .gradientTolerance
    obtain rfl := Except.ok.inj (hfine.symm.trans hnext)
    exact hvalue.trans (of_decide_eq_true htolerance)
  · obtain ⟨next, hnext, hvalue⟩ := hfields .iterationCap
    obtain rfl := Except.ok.inj (hcapped.symm.trans hnext)
    exact hvalue.trans (of_decide_eq_true hcap)
  · exact hfields .costTolerance

end LearnOptions

end MarkovLogic
