/-
**Values among white space.**

A text is read as a value if it is a word for the value with white space on either side.  The words
have no blank in them, so there is one such word at most, and to trim the text is to find it.

Main definitions:

* `Text.Amid` — a text is another one among white space;
* `Text.IsCount` — the words for counts and the counts they denote.

Main results:

* `Text.exists_amid_iff` — **a text is a word among white space if the trimmed text is one**;
* `Text.truth?_eq_some_iff`, `Text.count?_eq_some_iff` — the words that are read.
-/
import MarkovLogic.Proofs.Decimal.Grammar
import MarkovLogic.Text.Reading

set_option autoImplicit false

namespace MarkovLogic.Text

open Decimal (IsDigits IsSign IsPlain isDigits_iff ofDigits)

/-! ### White space -/

/-- The text is the core with white space on either side. -/
def Amid (core text : String) : Prop :=
  ∃ front back : List Char, (∀ c ∈ front, isBlank c = true) ∧ (∀ c ∈ back, isBlank c = true) ∧
    text.toList = front ++ (core.toList ++ back)

/-- Plain characters are no blanks. -/
theorem isBlank_of_isPlain {c : Char} (h : IsPlain c) : isBlank c = false := by
  obtain ⟨hlower, hupper⟩ := h
  simp only [isBlank, blankRanges, List.any_cons, List.any_nil, Bool.or_false, Bool.or_eq_false_iff,
    Bool.and_eq_false_iff, decide_eq_false_iff_not]
  omega

theorem dropWhile_of_forall_not {p : Char → Bool} {cs : List Char}
    (hcs : ∀ c ∈ cs, p c = false) (hne : cs ≠ []) (rest : List Char) :
    (cs ++ rest).dropWhile p = cs ++ rest := by
  obtain ⟨c, cs, rfl⟩ := List.exists_cons_of_ne_nil hne
  have hc : ¬p c = true := by simpa using hcs c List.mem_cons_self
  exact List.dropWhile_cons_of_neg hc

/-- The trimmed text is among white space. -/
theorem amid_trim (text : String) : Amid (trim text) text := by
  have hfront : text.toList.takeWhile isBlank ++ text.toList.dropWhile isBlank = text.toList :=
    List.takeWhile_append_dropWhile
  rw [trim]
  generalize text.toList.dropWhile isBlank = rest at hfront
  have hback : rest.reverse.takeWhile isBlank ++ rest.reverse.dropWhile isBlank = rest.reverse :=
    List.takeWhile_append_dropWhile
  refine ⟨text.toList.takeWhile isBlank, (rest.reverse.takeWhile isBlank).reverse,
    fun c hc => List.mem_takeWhile_imp hc,
    fun c hc => List.mem_takeWhile_imp (List.mem_reverse.1 hc), ?_⟩
  rw [String.toList_ofList, ← List.reverse_append, hback, List.reverse_reverse, hfront]

/-- To trim a text is to find the core, if this has no blank in it. -/
theorem trim_eq_of_amid {core text : String} (h : Amid core text)
    (hcore : ∀ c ∈ core.toList, isBlank c = false) : trim text = core := by
  obtain ⟨front, back, hfront, hback, htext⟩ := h
  have hcore' : ∀ c ∈ core.toList.reverse, isBlank c = false :=
    fun c hc => hcore c (List.mem_reverse.1 hc)
  have hback' : ∀ c ∈ back.reverse, isBlank c = true := fun c hc => hback c (List.mem_reverse.1 hc)
  rw [trim, htext, List.dropWhile_append_of_pos hfront, String.ofList_eq]
  by_cases hne : core.toList = []
  · have hdrop : back.dropWhile isBlank = [] := List.dropWhile_eq_nil_iff.2 hback
    rw [hne, List.nil_append, hdrop]
    rfl
  · have hne' : core.toList.reverse ≠ [] := by simpa using hne
    have hdrop : (core.toList.reverse).dropWhile isBlank = core.toList.reverse := by
      simpa using dropWhile_of_forall_not hcore' hne' []
    rw [dropWhile_of_forall_not hcore hne back, List.reverse_append,
      List.dropWhile_append_of_pos hback', hdrop, List.reverse_reverse]

/-- **A text is a word among white space if the trimmed text is one**, as long as words have no
blanks in them. -/
theorem exists_amid_iff {P : String → Prop}
    (hP : ∀ core, P core → ∀ c ∈ core.toList, IsPlain c) (text : String) :
    (∃ core, Amid core text ∧ P core) ↔ P (trim text) := by
  constructor
  · rintro ⟨core, hamid, hcore⟩
    rwa [trim_eq_of_amid hamid fun c hc => isBlank_of_isPlain (hP core hcore c hc)]
  · exact fun h => ⟨trim text, amid_trim text, h⟩

/-! ### Words -/

/-- The words for truth values. -/
theorem truth?_eq_some_iff {text : String} {value : Bool} :
    truth? text = some value ↔ text = toString value := by
  constructor
  · intro h
    unfold truth? at h
    split at h
    all_goals cases h
    all_goals rfl
  · rintro rfl
    cases value <;> rfl

/-- The words for counts: an optional plus sign and digits, for a number of at most 64 bits. -/
inductive IsCount : String → ℕ → Prop
  | digits {text : String} {sign ds : List Char} (htext : text.toList = sign ++ ds)
    (hsign : IsSign sign false) (hne : ds ≠ []) (hds : IsDigits ds)
    (hlt : ofDigits ds < 2 ^ 64) : IsCount text (ofDigits ds)

/-- The digits behind an optional plus sign. -/
def dropPlus : List Char → List Char
  | '+' :: ds => ds
  | ds => ds

theorem count?_eq (text : String) :
    count? text =
      if (dropPlus text.toList).isEmpty || !(dropPlus text.toList).all Char.isDigit then none
      else if ofDigits (dropPlus text.toList) < countBound then
        some (ofDigits (dropPlus text.toList))
      else none := rfl

theorem exists_plus (cs : List Char) : ∃ sign, IsSign sign false ∧ cs = sign ++ dropPlus cs := by
  unfold dropPlus
  split
  · exact ⟨['+'], .plus, rfl⟩
  · exact ⟨[], .none, rfl⟩

theorem dropPlus_append {sign ds : List Char} (hsign : IsSign sign false) (hds : IsDigits ds) :
    dropPlus (sign ++ ds) = ds := by
  cases hsign with
  | plus => rfl
  | none =>
      rw [List.nil_append, dropPlus]
      rintro rest rfl
      exact (hds.head_ne_sign '+' rfl).2 rfl

/-- **The words for counts that are read.** -/
theorem count?_eq_some_iff {text : String} {n : ℕ} : count? text = some n ↔ IsCount text n := by
  rw [count?_eq]
  constructor
  · intro h
    obtain ⟨sign, hsign, htext⟩ := exists_plus text.toList
    generalize dropPlus text.toList = ds at h htext
    split at h
    · cases h
    · rename_i hdigits
      simp only [Bool.or_eq_true, List.isEmpty_iff, Bool.not_eq_true', not_or,
        Bool.not_eq_false] at hdigits
      split at h
      · rename_i hlt
        cases h
        exact .digits htext hsign hdigits.1 (isDigits_iff.2 hdigits.2) hlt
      · cases h
  · rintro ⟨htext, hsign, hne, hds, hlt⟩
    rename_i sign ds
    have hdigits : ¬(ds.isEmpty || !ds.all Char.isDigit) = true := by
      rw [isDigits_iff.1 hds]
      simpa using hne
    have hbound : ofDigits ds < countBound := hlt
    rw [htext, dropPlus_append hsign hds, if_neg hdigits, if_pos hbound]

/-- No word for a count has a blank in it. -/
theorem IsCount.isPlain {text : String} {n : ℕ} (h : IsCount text n) :
    ∀ c ∈ text.toList, IsPlain c := by
  cases h with
  | digits htext hsign hne hds hlt =>
      rw [htext]
      exact List.forall_mem_append.2 ⟨hsign.isPlain, hds.isPlain⟩

end MarkovLogic.Text
