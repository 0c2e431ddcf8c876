/-
**Which options are refused, and how.**

A setting can go wrong in two ways.  Either no key has the name, or the text denotes no value of the
key's kind: then the setting itself is refused, and the error carries name and text as given.  Or
the text denotes a value that is out of range, and the error is that of the maximisation.  What a
text denotes is said by a grammar, with white space allowed on either side.

The name of the line search is the exception.  It is looked up in the text as given: white space is
not taken away, and a text that is no such name is reported as an error of the maximisation.

Main definitions:

* `OptionKey.Denotes` — the texts that denote a value of the key's kind;
* `OptionKey.Admissible` — the values in range;
* `LearnOptions.Classified` — a setting is refused in these two ways only, and in the right one.

Main results:

* `OptionKey.denotes_iff` — the readers accept what denotes a value;
* `LearnOptions.Reachable.classified_iff` — **every setting is classified so, that of the line
  search only if the text is a bare name**;
* `LearnOptions.line_search_misread` — a line search that does not exist is no refused option;
* `LearnOptions.Reachable.tolerance_accepted_iff` — the decimal numbers that are tolerances.
-/
import MarkovLogic.Proofs.Learner.OptionFields
import MarkovLogic.Proofs.Text.Words

set_option autoImplicit false

namespace MarkovLogic

/-! ### What a text denotes -/

/-- The text is the name of the line search, in any case. -/
def LineSearch.IsName (search : LineSearch) (text : String) : Prop :=
  text.map Char.toLower = search.name.map Char.toLower

namespace OptionKey

/-- The words for the values of a key. -/
def Spells : (key : OptionKey) → String → key.Value → Prop
  | initialWeights | verbose => fun word value => word = toString value
  | gradientTolerance | costTolerance => Decimal.Spells
  | iterationCap | memory => Text.IsCount
  | lineSearch => fun word search => search.IsName word

/-- The text is a word for the value, among white space. -/
def Denotes (key : OptionKey) (text : String) (value : key.Value) : Prop :=
  ∃ word, Text.Amid word text ∧ key.Spells word value

/-- The values in range: tolerances are finite and positive, and counts are not zero. -/
def Admissible : (key : OptionKey) → key.Value → Prop
  | gradientTolerance | costTolerance => PositiveTolerance
  | iterationCap | memory => fun count => 1 ≤ count
  | initialWeights | verbose | lineSearch => fun _ => True

end OptionKey

/-! ### What is read -/

/-- The name of a line search in small letters. -/
def LineSearch.smallName : LineSearch → String
  | moreThuente => "morethuente"
  | hagerZhang => "hagerzhang"

theorem LineSearch.isName_iff {search : LineSearch} {text : String} :
    search.IsName text ↔ text.map Char.toLower = search.smallName := by
  have hname : search.name.map Char.toLower = search.smallName := by
    cases search <;> decide +kernel
  rw [IsName, hname]

instance (search : LineSearch) (text : String) : Decidable (search.IsName text) :=
  decidable_of_iff _ LineSearch.isName_iff.symm

theorem LineSearch.ofName_eq_ok_iff {text : String} {search : LineSearch} :
    ofName text = .ok search ↔ search.IsName text := by
  rw [isName_iff, ofName]
  generalize text.map Char.toLower = small
  split
  · subst small
    cases search <;> simp [smallName]
  · split
    · subst small
      cases search <;> simp [smallName]
    · cases search <;> simp [smallName, *]

/-- A text that names no line search is an error of its own. -/
theorem LineSearch.ofName_eq_error {text : String}
    (h : ∀ search : LineSearch, ¬search.IsName text) :
    ofName text = .error (.unknownLineSearch text
      "Valid options are case insensitive 'MoreThuente' or 'HagerZhang'.") := by
  have hmoreThuente : text.map Char.toLower ≠ "morethuente" :=
    fun heq => h moreThuente (isName_iff.2 heq)
  have hhagerZhang : text.map Char.toLower ≠ "hagerzhang" :=
    fun heq => h hagerZhang (isName_iff.2 heq)
  rw [ofName, if_neg hmoreThuente, if_neg hhagerZhang]

namespace OptionKey

/-- The reader of a key. -/
def reader? : (key : OptionKey) → String → Option key.Value
  | initialWeights | verbose => Text.truth?
  | gradientTolerance | costTolerance => Decimal.read?
  | iterationCap | memory => Text.count?
  | lineSearch => fun word => (LineSearch.ofName word).toOption

theorem reader?_eq_some_iff {key : OptionKey} {word : String} {value : key.Value} :
    key.reader? word = some value ↔ key.Spells word value := by
  cases key with
  | initialWeights | verbose => exact Text.truth?_eq_some_iff
  | gradientTolerance | costTolerance => exact Decimal.read?_eq_some_iff
  | iterationCap | memory => exact Text.count?_eq_some_iff
  | lineSearch =>
      refine Iff.trans ?_ LineSearch.ofName_eq_ok_iff
      change (LineSearch.ofName word).toOption = some value ↔ _
      cases LineSearch.ofName word <;> simp [Except.toOption]

/-- Words have no blanks in them. -/
theorem Spells.isPlain {key : OptionKey} {word : String} {value : key.Value}
    (h : key.Spells word value) : ∀ c ∈ word.toList, Decimal.IsPlain c := by
  have htruth {b : Bool} (hword : word = toString b) : ∀ c ∈ word.toList, Decimal.IsPlain c := by
    subst hword
    cases b with
    | false =>
        change ∀ c ∈ "false".toList, _
        simp [Decimal.IsPlain]
    | true =>
        change ∀ c ∈ "true".toList, _
        simp [Decimal.IsPlain]
  cases key with
  | initialWeights | verbose => exact htruth h
  | gradientTolerance | costTolerance => exact Decimal.Spells.isPlain h
  | iterationCap | memory => exact Text.IsCount.isPlain h
  | lineSearch =>
      have hname : word.map Char.toLower = value.smallName := LineSearch.isName_iff.1 h
      have hsmall : ∀ c ∈ value.smallName.toList, Decimal.IsPlain c := by
        cases value <;> simp [LineSearch.smallName, Decimal.IsPlain]
      intro c hc
      refine Decimal.isPlain_of_toLower (hsmall _ ?_)
      rw [← hname, String.toList_map]
      exact List.mem_map_of_mem hc

/-- **The readers accept what denotes a value**, once the white space is taken away. -/
theorem denotes_iff {key : OptionKey} {text : String} {value : key.Value} :
    key.Denotes text value ↔ key.reader? (Text.trim text) = some value := by
  rw [Denotes, Text.exists_amid_iff fun _ h => Spells.isPlain h, reader?_eq_some_iff]

/-- No text denotes two values. -/
theorem Denotes.unique {key : OptionKey} {text : String} {value value' : key.Value}
    (h : key.Denotes text value) (h' : key.Denotes text value') : value = value' :=
  Option.some.inj ((denotes_iff.1 h).symm.trans (denotes_iff.1 h'))

/-! ### What is refused -/

/-- The check of a value that was read. -/
def check : (key : OptionKey) → key.Value → Except (LearningError Float) key.Value
  | initialWeights, value | verbose, value | lineSearch, value => .ok value
  | gradientTolerance, tolerance => do
    (checkGradientTolerance (some tolerance)).mapError .optimization
    return tolerance
  | costTolerance, tolerance => do
    (checkCostTolerance (some tolerance)).mapError .optimization
    return tolerance
  | iterationCap, cap =>
    positiveCount cap (.invalidIterationCap 0 "Maximum iterations must be greater than zero.")
  | memory, pairs =>
    positiveCount pairs (.invalidMemory 0 "L-BFGS memory must be greater than zero.")

/-- A value in range passes its check. -/
theorem check_of_admissible {key : OptionKey} {value : key.Value} (h : key.Admissible value) :
    key.check value = .ok value := by
  cases key with
  | initialWeights | verbose | lineSearch => rfl
  | gradientTolerance | costTolerance =>
      have hcheck {invalid} : checkTolerance invalid (some value) = .ok () :=
        checkTolerance_eq_ok_iff.2 fun _ heq => Option.some.inj heq ▸ h
      change (checkTolerance _ (some value)).mapError _ >>= _ = _
      rw [hcheck]
      rfl
  | iterationCap | memory => rw [check, positiveCount, if_neg (Nat.pos_iff_ne_zero.1 h)]

theorem exists_toleranceFault {tolerance : Float} (h : ¬PositiveTolerance tolerance) :
    ∃ reason, toleranceFault? tolerance = some reason :=
  Option.ne_none_iff_exists'.1 (mt toleranceFault?_eq_none_iff.1 h)

/-- A value out of range is refused as the maximisation refuses it. -/
theorem check_of_not_admissible {key : OptionKey} {value : key.Value} (h : ¬key.Admissible value) :
    ∃ error, key.check value = .error (.optimization error) := by
  cases key with
  | initialWeights | verbose | lineSearch => exact absurd trivial h
  | gradientTolerance | costTolerance =>
      obtain ⟨reason, hreason⟩ := exists_toleranceFault h
      change ∃ error, (checkTolerance _ (some value)).mapError _ >>= _ = _
      rw [checkTolerance, hreason]
      exact ⟨_, rfl⟩
  | iterationCap | memory =>
      obtain rfl : value = 0 := Nat.eq_zero_of_not_pos h
      exact ⟨_, rfl⟩

variable {key : OptionKey} {name text : String}

/-- Apart from the line search, a value is read among white space and checked. -/
theorem read_eq (hkey : key ≠ lineSearch) :
    key.read name text = LearnOptions.readValue key.reader? name text >>= key.check := by
  cases key with
  | lineSearch => exact absurd rfl hkey
  | initialWeights | verbose => exact (bind_pure _).symm
  | gradientTolerance | costTolerance | iterationCap | memory => rfl

/-- A text that denotes no value is refused with the name and the text as given. -/
theorem read_of_forall_not_denotes (hkey : key ≠ lineSearch)
    (h : ∀ value, ¬key.Denotes text value) :
    key.read name text = .error (.invalidOption name text "value could not be parsed") := by
  have hread : key.reader? (Text.trim text) = none :=
    Option.eq_none_iff_forall_ne_some.2 fun value hvalue => h value (denotes_iff.2 hvalue)
  rw [read_eq hkey, LearnOptions.readValue, hread]
  rfl

/-- A value that is denoted is checked. -/
theorem read_of_denotes (hkey : key ≠ lineSearch) {value : key.Value} (h : key.Denotes text value) :
    key.read name text = key.check value := by
  rw [read_eq hkey, LearnOptions.readValue, denotes_iff.1 h]
  rfl

/-- A bare name of a line search denotes it. -/
theorem denotes_of_isName {search : LineSearch} (h : search.IsName text) :
    lineSearch.Denotes text search :=
  ⟨text, ⟨[], [], nofun, nofun, (List.append_nil _).symm⟩, h⟩

end OptionKey

/-! ### Settings -/

namespace LearnOptions

open OptionKey

/-- A setting is refused as an option if no key has the name or the text denotes no value, by the
checks of the maximisation if it denotes a value out of range, and accepted otherwise. -/
structure Classified (o : LearnOptions) (name text : String) : Prop where
  /-- The error of a refused option carries the name and the text as given. -/
  invalid : (∃ reason, o.set name text = .error (.invalidOption name text reason)) ↔
    (∀ key : OptionKey, name ≠ key.name) ∨
      ∃ key : OptionKey, name = key.name ∧ ∀ value, ¬key.Denotes text value
  /-- No other error is one of the configuration. -/
  configuration : (∃ error, o.set name text = .error error ∧ error.isConfiguration = true) ↔
    ∃ reason, o.set name text = .error (.invalidOption name text reason)
  /-- What is out of range is an error of the maximisation. -/
  optimization : (∃ error, o.set name text = .error (.optimization error)) ↔
    ∃ (key : OptionKey) (value : key.Value), name = key.name ∧ key.Denotes text value ∧
      ¬key.Admissible value
  /-- What is accepted is the value in the field of the key. -/
  accepted (next : LearnOptions) : o.set name text = .ok next ↔
    ∃ (key : OptionKey) (value : key.Value), name = key.name ∧ key.Denotes text value ∧
      key.Admissible value ∧ next = o.put key value

variable {o : LearnOptions} {name text : String}

/-- A text that denotes nothing is refused as an option. -/
theorem classified_of_invalid {reason : String}
    (hset : o.set name text = .error (.invalidOption name text reason))
    (h : ∀ (key : OptionKey) (value : key.Value), name = key.name → ¬key.Denotes text value) :
    o.Classified name text where
  invalid := by
    refine ⟨fun _ => ?_, fun _ => ⟨reason, hset⟩⟩
    by_cases hkey : ∃ key : OptionKey, name = key.name
    · obtain ⟨key, hname⟩ := hkey
      exact .inr ⟨key, hname, fun value => h key value hname⟩
    · exact .inl (not_exists.1 hkey)
  configuration := ⟨fun _ => ⟨reason, hset⟩, fun _ => ⟨_, hset, rfl⟩⟩
  optimization := by
    rw [hset]
    exact ⟨nofun, fun ⟨key, value, hname, hdenotes, _⟩ => absurd hdenotes (h key value hname)⟩
  accepted next := by
    rw [hset]
    exact ⟨nofun, fun ⟨key, value, hname, hdenotes, _⟩ => absurd hdenotes (h key value hname)⟩

section Denoted

variable {key : OptionKey} {value : key.Value} (hname : name = key.name)
  (hdenotes : key.Denotes text value)

include hname hdenotes

/-- What is denoted is denoted for no other key, and is no other value. -/
theorem exists_denoted_iff {P : (key : OptionKey) → key.Value → Prop} :
    (∃ (key : OptionKey) (value : key.Value), name = key.name ∧ key.Denotes text value ∧
      P key value) ↔ P key value := by
  constructor
  · rintro ⟨key', value', hname', hdenotes', h⟩
    obtain rfl : key = key' := name_injective (hname.symm.trans hname')
    obtain rfl := hdenotes.unique hdenotes'
    exact h
  · exact fun h => ⟨key, value, hname, hdenotes, h⟩

theorem not_invalid :
    ¬((∀ key : OptionKey, name ≠ key.name) ∨
      ∃ key : OptionKey, name = key.name ∧ ∀ value, ¬key.Denotes text value) := by
  rintro (h | ⟨key', hname', h⟩)
  · exact h key hname
  · obtain rfl : key = key' := name_injective (hname.symm.trans hname')
    exact h value hdenotes

/-- A value out of range is refused as the maximisation refuses it. -/
theorem classified_of_not_admissible {error : OptimizationError Float}
    (hset : o.set name text = .error (.optimization error)) (h : ¬key.Admissible value) :
    o.Classified name text where
  invalid := by
    rw [hset]
    exact ⟨nofun, fun hinvalid => absurd hinvalid (not_invalid hname hdenotes)⟩
  configuration := by
    rw [hset]
    exact ⟨by rintro ⟨_, ⟨⟩, ⟨⟩⟩, nofun⟩
  optimization := by
    rw [exists_denoted_iff hname hdenotes]
    exact ⟨fun _ => h, fun _ => ⟨error, hset⟩⟩
  accepted next := by
    rw [exists_denoted_iff hname hdenotes, hset]
    exact ⟨nofun, fun hadmissible => absurd hadmissible.1 h⟩

/-- A value in range is accepted. -/
theorem classified_of_admissible (hset : o.set name text = .ok (o.put key value))
    (h : key.Admissible value) : o.Classified name text where
  invalid := by
    rw [hset]
    exact ⟨nofun, fun hinvalid => absurd hinvalid (not_invalid hname hdenotes)⟩
  configuration := by
    rw [hset]
    exact ⟨nofun, nofun⟩
  optimization := by
    rw [exists_denoted_iff hname hdenotes, hset]
    exact ⟨nofun, fun hnot => absurd h hnot⟩
  accepted next := by
    rw [exists_denoted_iff hname hdenotes, hset, Except.ok.injEq, and_iff_right h]
    exact eq_comm

end Denoted

/-- A name without a key is refused as an option. -/
theorem classified_of_unknown (h : ∀ key : OptionKey, name ≠ key.name) :
    o.Classified name text := by
  have hkey : OptionKey.ofName? name = none :=
    Option.eq_none_iff_forall_ne_some.2 fun key hkey => h key (ofName?_eq_some_iff.1 hkey)
  have hset : o.set name text = .error (.invalidOption name text "unknown option") := by
    rw [set, hkey]
  exact classified_of_invalid hset fun key _ hname => absurd hname (h key)

/-- To set the option of a key is to read the text. -/
theorem set_eq_map (ho : o.settings.Valid) {key : OptionKey} (hname : name = key.name)
    (text : String) :
    o.set name text = (key.read name text).map (o.put key) := by
  rw [set, ofName?_eq_some_iff.2 hname]
  exact setKey_eq ho name text key

/-- Apart from the line search, settings are classified. -/
theorem classified_of_ne (ho : o.settings.Valid) {key : OptionKey} (hname : name = key.name)
    (hkey : key ≠ .lineSearch) : o.Classified name text := by
  have hset := set_eq_map ho hname text
  by_cases hdenoted : ∃ value, key.Denotes text value
  · obtain ⟨value, hdenotes⟩ := hdenoted
    rw [read_of_denotes hkey hdenotes] at hset
    by_cases hadmissible : key.Admissible value
    · rw [check_of_admissible hadmissible] at hset
      exact classified_of_admissible hname hdenotes hset hadmissible
    · obtain ⟨error, herror⟩ := check_of_not_admissible hadmissible
      rw [herror] at hset
      exact classified_of_not_admissible hname hdenotes hset hadmissible
  · rw [read_of_forall_not_denotes hkey (not_exists.1 hdenoted)] at hset
    refine classified_of_invalid hset fun key' value hname' hdenotes => hdenoted ?_
    obtain rfl : key = key' := name_injective (hname.symm.trans hname')
    exact ⟨value, hdenotes⟩

/-- Apart from the line search, what is denoted is accepted if it is in range. -/
theorem exists_ok_iff (ho : o.settings.Valid) {key : OptionKey} (hkey : key ≠ .lineSearch)
    {value : key.Value} (hdenotes : key.Denotes text value) :
    (∃ next, o.set key.name text = .ok next) ↔ key.Admissible value := by
  have hclassified : o.Classified key.name text := classified_of_ne ho rfl hkey
  constructor
  · rintro ⟨next, hset⟩
    have hdenoted := (hclassified.accepted next).1 hset
    rw [exists_denoted_iff rfl hdenotes] at hdenoted
    exact hdenoted.1
  · exact fun h => ⟨_, (hclassified.accepted _).2 ⟨key, value, rfl, hdenotes, h, rfl⟩⟩

/-- A bare name of a line search is accepted. -/
theorem set_of_isName (ho : o.settings.Valid) {search : LineSearch} (h : search.IsName text) :
    o.set OptionKey.lineSearch.name text = .ok (o.put .lineSearch search) := by
  rw [set_eq_map ho rfl text, OptionKey.read, LineSearch.ofName_eq_ok_iff.2 h]
  rfl

/-- Any other text is an error of the maximisation. -/
theorem set_of_forall_not_isName (ho : o.settings.Valid)
    (h : ∀ search : LineSearch, ¬search.IsName text) :
    o.set OptionKey.lineSearch.name text = .error (.optimization (.unknownLineSearch text
      "Valid options are case insensitive 'MoreThuente' or 'HagerZhang'.")) := by
  rw [set_eq_map ho rfl text, OptionKey.read, LineSearch.ofName_eq_error h]
  rfl

/-- **Every setting is classified, that of the line search only if the text is a bare name**; any
other text is then an error of the maximisation, whether it denotes a line search or not. -/
theorem Reachable.classified_iff (ho : o.Reachable) (name text : String) :
    (o.Classified name text ↔
      (name = OptionKey.lineSearch.name → ∃ search : LineSearch, search.IsName text)) ∧
    (∀ search : LineSearch, search.IsName text →
      o.set OptionKey.lineSearch.name text = .ok (o.put .lineSearch search)) ∧
    ((∀ search : LineSearch, ¬search.IsName text) →
      o.set OptionKey.lineSearch.name text = .error (.optimization (.unknownLineSearch text
        "Valid options are case insensitive 'MoreThuente' or 'HagerZhang'."))) := by
  refine ⟨⟨fun h hname => ?_, fun h => ?_⟩, fun _ => set_of_isName ho.valid,
    set_of_forall_not_isName ho.valid⟩
  · -- no line search is out of range, so the error of the maximisation is the wrong one
    by_contra hbare
    subst hname
    have hset := set_of_forall_not_isName ho.valid (not_exists.1 hbare)
    obtain ⟨key, value, hname, -, hvalue⟩ := h.optimization.1 ⟨_, hset⟩
    obtain rfl : OptionKey.lineSearch = key := name_injective hname
    exact hvalue trivial
  · by_cases hkey : ∃ key : OptionKey, name = key.name
    · obtain ⟨key, hname⟩ := hkey
      by_cases hsearch : key = .lineSearch
      · subst hsearch
        obtain ⟨search, hbare⟩ := h hname
        subst hname
        exact classified_of_admissible rfl (denotes_of_isName hbare) (set_of_isName ho.valid hbare)
          trivial
      · exact classified_of_ne ho.valid hname hsearch
    · exact classified_of_unknown (not_exists.1 hkey)

/-- A tolerance that is rounded to zero, a count of 65 bits, and a line search in any case. -/
theorem classified_iff_atBounds :
    LearnOptions.standard.Reachable ∧
      (∃ error, standard.set "gtol" "\t1e-400 " = .error (.optimization error)) ∧
      (∃ reason, standard.set "maxiter" "+18446744073709551616" =
        .error (.invalidOption "maxiter" "+18446744073709551616" reason)) ∧
      standard.set "line_search" "hAGERzHANG" = .ok (standard.put .lineSearch .hagerZhang) := by
  have hclassified {name : String} (text : String) (hname : name ≠ OptionKey.lineSearch.name) :
      standard.Classified name text :=
    (Reachable.classified_iff .standard name text).1.2 fun h => absurd h hname
  have hzero : OptionKey.gradientTolerance.Denotes "\t1e-400 " (0 : Float) := by
    have hread : Decimal.read? (Text.trim "\t1e-400 ") = some 0 := by decide +kernel
    exact denotes_iff.2 hread
  have hcount : ∀ cap, ¬OptionKey.iterationCap.Denotes "+18446744073709551616" cap := by
    have hread : Text.count? (Text.trim "+18446744073709551616") = none := by decide +kernel
    exact fun cap h => Option.some_ne_none cap ((denotes_iff.1 h).symm.trans hread)
  refine ⟨.standard, ?_, ?_, ?_⟩
  · exact (hclassified _ (by decide)).optimization.2
      ⟨.gradientTolerance, 0, rfl, hzero, fun h => absurd h.positive (by decide)⟩
  · exact (hclassified _ (by decide)).invalid.2 (.inr ⟨.iterationCap, rfl, hcount⟩)
  · exact (Reachable.classified_iff .standard "line_search" "hAGERzHANG").2.1 _ (by decide +kernel)

/-- **A line search that does not exist is no refused option, and one among white space is not
found.** -/
theorem line_search_misread :
    (∀ search, ¬OptionKey.lineSearch.Denotes "newton" search) ∧
      standard.set "line_search" "newton" = .error (.optimization (.unknownLineSearch "newton"
        "Valid options are case insensitive 'MoreThuente' or 'HagerZhang'.")) ∧
      ¬standard.Classified "line_search" "newton" ∧
      OptionKey.lineSearch.Denotes " HagerZhang" LineSearch.hagerZhang ∧
      standard.set "line_search" " HagerZhang" = .error (.optimization (.unknownLineSearch
        " HagerZhang" "Valid options are case insensitive 'MoreThuente' or 'HagerZhang'.")) ∧
      ¬standard.Classified "line_search" " HagerZhang" := by
  have hnewton : ∀ search : LineSearch, ¬search.IsName "newton" := by
    intro search
    cases search <;> decide +kernel
  have hblank : ∀ search : LineSearch, ¬search.IsName " HagerZhang" := by
    intro search
    cases search <;> decide +kernel
  have hnone : ∀ search, ¬OptionKey.lineSearch.Denotes "newton" search := fun search h => by
    have htrim : Text.trim "newton" = "newton" := by decide +kernel
    rw [denotes_iff, htrim, reader?_eq_some_iff] at h
    exact hnewton search h
  have hdenotes : OptionKey.lineSearch.Denotes " HagerZhang" LineSearch.hagerZhang := by
    refine ⟨"HagerZhang", ⟨[' '], [], ?_, nofun, by simp⟩, rfl⟩
    rintro c (_ | ⟨_, ⟨⟩⟩)
    rfl
  have hset := set_of_forall_not_isName (o := standard) Settings.valid_standard hnewton
  have hset' := set_of_forall_not_isName (o := standard) Settings.valid_standard hblank
  refine ⟨hnone, hset, fun h => ?_, hdenotes, hset', fun h => ?_⟩
  · obtain ⟨reason, hinvalid⟩ := h.invalid.2 (.inr ⟨.lineSearch, rfl, hnone⟩)
    cases hset.symm.trans hinvalid
  · have haccepted := (h.accepted _).2 ⟨.lineSearch, .hagerZhang, rfl, hdenotes, trivial, rfl⟩
    cases hset'.symm.trans haccepted

/-! ### Tolerances -/

/-- **The decimal numbers that are tolerances**, however they are written: those above half of the
least positive double and below the bound to infinity. -/
theorem Reachable.tolerance_accepted_iff (ho : o.Reachable) {key : OptionKey}
    (hkey : key = .gradientTolerance ∨ key = .costTolerance) {word : String}
    (htext : Text.Amid word text) {sign cs : List Char} (hword : word.toList = sign ++ cs)
    (hsign : Decimal.IsSign sign false) {v : ℚ} (hcs : Decimal.IsDecimal cs v) :
    (∃ next, o.set key.name text = .ok next) ↔
      2 ^ (-1075 : ℤ) < v ∧ v < Double.overflowBound := by
  obtain ⟨x, hx⟩ := hcs.exists_nearest
  have hspells : Decimal.Spells word x := .signed hword hsign (.decimal hcs hx)
  have hpositive : PositiveTolerance x ↔ 2 ^ (-1075 : ℤ) < v ∧ v < Double.overflowBound :=
    ⟨fun h => hx.positive_iff.1 ⟨h.finite, h.positive⟩,
      fun h => ⟨(hx.positive_iff.2 h).1, (hx.positive_iff.2 h).2⟩⟩
  rw [← hpositive]
  rcases hkey with rfl | rfl
  · exact exists_ok_iff ho.valid (by decide) ⟨word, htext, hspells⟩
  · exact exists_ok_iff ho.valid (by decide) ⟨word, htext, hspells⟩

end LearnOptions

end MarkovLogic
