/-
**The grammar of decimal numbers.**

A reader that takes its text apart from the left says little about which texts it accepts.  Here the
grammar is written down as it would be in a manual, with the number that a text denotes, and the
reader is shown to accept the texts of the grammar, no others, and to yield the nearest double.

Main definitions:

* `Decimal.IsSign`, `Decimal.IsPower`, `Decimal.IsFraction`, `Decimal.IsDecimal` — the parts of a
  number, and the number without a sign;
* `Decimal.IsUnsigned`, `Decimal.Spells` — the texts of the grammar and the doubles they denote.

Main results:

* `Decimal.power?_eq_some_iff`, `Decimal.unsigned?_eq_some_iff` — the parts;
* `Decimal.read?_eq_some_iff` — **the reader accepts the texts of the grammar**, and yields what
  they denote.
-/
import MarkovLogic.Proofs.Decimal.Nearest

set_option autoImplicit false

namespace MarkovLogic.Decimal

/-! ### The grammar -/

/-- An optional sign, and whether it is negative. -/
inductive IsSign : List Char → Bool → Prop
  | none : IsSign [] false
  | plus : IsSign ['+'] false
  | minus : IsSign ['-'] true

/-- An optional power of ten: the letter `e` in either case, an optional sign and digits. -/
inductive IsPower : List Char → ℤ → Prop
  | none : IsPower [] 0
  | exponent {letter : Char} {sign ds : List Char} {negative : Bool}
    (hletter : letter = 'e' ∨ letter = 'E') (hsign : IsSign sign negative) (hne : ds ≠ [])
    (hds : IsDigits ds) :
    IsPower (letter :: (sign ++ ds)) (if negative then -(ofDigits ds : ℤ) else ofDigits ds)

/-- An optional point with the places behind it. -/
inductive IsFraction : List Char → List Char → Prop
  | none : IsFraction [] []
  | point (places : List Char) : IsFraction ('.' :: places) places

/-- Digits with an optional point and an optional power of ten, at least one digit before or behind
the point. -/
inductive IsDecimal : List Char → ℚ → Prop
  | parts {whole fraction places tail : List Char} {power : ℤ} (hwhole : IsDigits whole)
    (hfraction : IsFraction fraction places) (hplaces : IsDigits places)
    (hne : whole ++ places ≠ []) (hpower : IsPower tail power) :
    IsDecimal (whole ++ (fraction ++ tail))
      ((ofDigits whole + ofDigits places / 10 ^ places.length) * 10 ^ power)

/-- A number without a sign: the words for infinity and for what is not a number, in any case, or a
decimal number with its nearest double. -/
inductive IsUnsigned (cs : List Char) : Float → Prop
  | infinity (h : cs.map Char.toLower = "inf".toList ∨ cs.map Char.toLower = "infinity".toList) :
    IsUnsigned cs (1.0 / 0.0)
  | nan (h : cs.map Char.toLower = "nan".toList) : IsUnsigned cs (0.0 / 0.0)
  | decimal {v : ℚ} {x : Float} (h : IsDecimal cs v)
    (nearest : Double.Nearest v x.toModel.unpack) : IsUnsigned cs x

/-- The texts of the grammar and the doubles they denote. -/
inductive Spells : String → Float → Prop
  | signed {text : String} {sign cs : List Char} {negative : Bool} {x : Float}
    (htext : text.toList = sign ++ cs) (hsign : IsSign sign negative) (hcs : IsUnsigned cs x) :
    Spells text (if negative then -x else x)

/-! ### Signs -/

/-- The sign in front, and the rest. -/
def splitSign : List Char → Bool × List Char
  | '-' :: cs => (true, cs)
  | '+' :: cs => (false, cs)
  | cs => (false, cs)

theorem exists_sign (cs : List Char) :
    ∃ sign, IsSign sign (splitSign cs).1 ∧ cs = sign ++ (splitSign cs).2 := by
  unfold splitSign
  split
  · exact ⟨['-'], .minus, rfl⟩
  · exact ⟨['+'], .plus, rfl⟩
  · exact ⟨[], .none, rfl⟩

/-- A sign is found if what follows does not begin with one. -/
theorem splitSign_append {sign cs : List Char} {negative : Bool} (h : IsSign sign negative)
    (hcs : ∀ c ∈ cs.head?, c ≠ '-' ∧ c ≠ '+') : splitSign (sign ++ cs) = (negative, cs) := by
  cases h with
  | plus => rfl
  | minus => rfl
  | none =>
      rw [List.nil_append, splitSign]
      · rintro rest rfl
        exact (hcs '-' rfl).1 rfl
      · rintro rest rfl
        exact (hcs '+' rfl).2 rfl

/-! ### Powers of ten -/

theorem power?_cons (c : Char) (rest : List Char) :
    power? (c :: rest) =
      if c = 'e' ∨ c = 'E' then
        if (splitSign rest).2.isEmpty || !(splitSign rest).2.all Char.isDigit then none
        else some (if (splitSign rest).1 then -(ofDigits (splitSign rest).2 : ℤ)
          else ofDigits (splitSign rest).2)
      else none := rfl

theorem IsDigits.head_ne_sign {ds : List Char} (h : IsDigits ds) :
    ∀ c ∈ ds.head?, c ≠ '-' ∧ c ≠ '+' := by
  intro c hc
  have hdigit := h c (List.mem_of_mem_head? hc)
  constructor <;> (rintro rfl; cases hdigit)

/-- The powers of ten that are read. -/
theorem power?_eq_some_iff {cs : List Char} {power : ℤ} :
    power? cs = some power ↔ IsPower cs power := by
  constructor
  · intro h
    cases cs with
    | nil =>
        cases h
        exact .none
    | cons c rest =>
        rw [power?_cons] at h
        split at h
        · rename_i hletter
          split at h
          · cases h
          · rename_i hdigits
            simp only [Bool.or_eq_true, List.isEmpty_iff, Bool.not_eq_true', not_or,
              Bool.not_eq_false] at hdigits
            obtain ⟨sign, hsign, hrest⟩ := exists_sign rest
            cases h
            generalize splitSign rest = split at hsign hrest hdigits
            subst hrest
            exact .exponent hletter hsign hdigits.1 (isDigits_iff.2 hdigits.2)
        · cases h
  · intro h
    cases h with
    | none => rfl
    | @exponent letter sign ds negative hletter hsign hne hds =>
        have hdigits : ¬(ds.isEmpty || !ds.all Char.isDigit) = true := by
          rw [isDigits_iff.1 hds]
          simpa using hne
        rw [power?_cons, if_pos hletter, splitSign_append hsign hds.head_ne_sign, if_neg hdigits]

/-- A power of ten begins with its letter. -/
theorem IsPower.head {cs : List Char} {power : ℤ} (h : IsPower cs power) :
    ∀ c ∈ cs.head?, c = 'e' ∨ c = 'E' := by
  cases h with
  | none => exact nofun
  | exponent hletter =>
      rintro c ⟨⟩
      exact hletter

/-! ### Digits with a point -/

/-- Digits are found if what follows does not begin with one. -/
theorem span_digits {ds rest : List Char} (hds : IsDigits ds)
    (hrest : ∀ c ∈ rest.head?, c.isDigit = false) :
    (ds ++ rest).takeWhile Char.isDigit = ds ∧ (ds ++ rest).dropWhile Char.isDigit = rest := by
  have hstop : rest.takeWhile Char.isDigit = [] ∧ rest.dropWhile Char.isDigit = rest := by
    cases rest with
    | nil => exact ⟨rfl, rfl⟩
    | cons c rest =>
        have hc : ¬c.isDigit = true := by simpa using hrest c rfl
        exact ⟨List.takeWhile_cons_of_neg hc, List.dropWhile_cons_of_neg hc⟩
  rw [List.takeWhile_append_of_pos hds, List.dropWhile_append_of_pos hds, hstop.1, hstop.2,
    List.append_nil]
  exact ⟨rfl, rfl⟩

theorem isDigits_takeWhile (cs : List Char) : IsDigits (cs.takeWhile Char.isDigit) :=
  fun _ hc => List.mem_takeWhile_imp hc

/-- The places behind the point in front, and the rest. -/
def splitPlaces : List Char → List Char × List Char
  | '.' :: cs => (cs.takeWhile Char.isDigit, cs.dropWhile Char.isDigit)
  | cs => ([], cs)

theorem exists_fraction (cs : List Char) :
    ∃ fraction, IsFraction fraction (splitPlaces cs).1 ∧ IsDigits (splitPlaces cs).1 ∧
      cs = fraction ++ (splitPlaces cs).2 := by
  unfold splitPlaces
  split
  · rename_i cs
    refine ⟨'.' :: cs.takeWhile Char.isDigit, .point _, isDigits_takeWhile cs, ?_⟩
    rw [List.cons_append, List.takeWhile_append_dropWhile]
  · exact ⟨[], .none, nofun, rfl⟩

theorem splitPlaces_append {fraction places tail : List Char} {power : ℤ}
    (hfraction : IsFraction fraction places) (hplaces : IsDigits places)
    (htail : IsPower tail power) : splitPlaces (fraction ++ tail) = (places, tail) := by
  cases hfraction with
  | none =>
      rw [List.nil_append, splitPlaces]
      rintro rest rfl
      exact absurd (htail.head '.' rfl) (by decide)
  | point =>
      have hspan := span_digits hplaces fun c hc => by
        rcases htail.head c hc with rfl | rfl <;> rfl
      rw [List.cons_append, splitPlaces, hspan.1, hspan.2]

/-- A decimal number without a sign. -/
def decimal? (cs : List Char) : Option Float :=
  let ds := cs.takeWhile Char.isDigit ++ (splitPlaces (cs.dropWhile Char.isDigit)).1
  if ds.isEmpty then none
  else (power? (splitPlaces (cs.dropWhile Char.isDigit)).2).map fun power =>
    nearest ds (power - (splitPlaces (cs.dropWhile Char.isDigit)).1.length)

/-- The digits on both sides of the point, as a whole number times a power of ten. -/
theorem ofDigits_append_mul_zpow (whole places : List Char) (power : ℤ) :
    (ofDigits (whole ++ places) : ℚ) * 10 ^ (power - places.length) =
      (ofDigits whole + ofDigits places / 10 ^ places.length) * 10 ^ power := by
  rw [ofDigits_append, zpow_sub₀ (by norm_num), zpow_natCast]
  push_cast
  field_simp

/-- Every decimal number has a nearest double. -/
theorem IsDecimal.exists_nearest {cs : List Char} {v : ℚ} (h : IsDecimal cs v) :
    ∃ x : Float, Double.Nearest v x.toModel.unpack := by
  obtain ⟨hwhole, -, hplaces, -, -⟩ := h
  rw [← ofDigits_append_mul_zpow]
  exact ⟨_, nearest_spec (hwhole.append hplaces) _⟩

/-- The decimal numbers that are read, and their doubles. -/
theorem decimal?_eq_some_iff {cs : List Char} {x : Float} :
    decimal? cs = some x ↔ ∃ v, IsDecimal cs v ∧ Double.Nearest v x.toModel.unpack := by
  constructor
  · intro h
    have hcs : cs.takeWhile Char.isDigit ++ cs.dropWhile Char.isDigit = cs :=
      List.takeWhile_append_dropWhile
    have hwhole := isDigits_takeWhile cs
    obtain ⟨fraction, hfraction, hplaces, hrest⟩ := exists_fraction (cs.dropWhile Char.isDigit)
    rw [decimal?] at h
    generalize splitPlaces (cs.dropWhile Char.isDigit) = split at h hfraction hplaces hrest
    rw [hrest] at hcs
    generalize cs.takeWhile Char.isDigit = whole at h hcs hwhole
    split at h
    · cases h
    · rename_i hne
      obtain ⟨power, hpower, rfl⟩ := Option.map_eq_some_iff.1 h
      have hdecimal := IsDecimal.parts hwhole hfraction hplaces (by simpa using hne)
        (power?_eq_some_iff.1 hpower)
      refine ⟨_, hcs ▸ hdecimal, ?_⟩
      rw [← ofDigits_append_mul_zpow]
      exact nearest_spec (hwhole.append hplaces) _
  · rintro ⟨v, ⟨hwhole, hfraction, hplaces, hne, hpower⟩, hnearest⟩
    rename_i whole fraction places tail power
    have hstop : ∀ c ∈ (fraction ++ tail).head?, c.isDigit = false := fun c hc => by
      cases hfraction with
      | none => rcases hpower.head c hc with rfl | rfl <;> rfl
      | point =>
          obtain rfl : '.' = c := Option.some.inj hc
          rfl
    have hspan := span_digits hwhole hstop
    rw [decimal?, hspan.1, hspan.2, splitPlaces_append hfraction hplaces hpower]
    dsimp only
    rw [if_neg (by simpa using hne), power?_eq_some_iff.2 hpower, Option.map_some]
    rw [← ofDigits_append_mul_zpow] at hnearest
    have hread := nearest_spec (hwhole.append hplaces) (power - places.length)
    exact congrArg some (Double.eq_of_unpack_eq (hread.unique hnearest))

/-! ### Numbers without a sign -/

theorem unsigned?_eq (cs : List Char) :
    unsigned? cs =
      if cs.map Char.toLower = "inf".toList ∨ cs.map Char.toLower = "infinity".toList then
        some (1.0 / 0.0)
      else if cs.map Char.toLower = "nan".toList then some (0.0 / 0.0)
      else decimal? cs := by
  simp only [← String.ofList_eq]
  rfl

/-- Characters of ASCII that are printed, without the blank. -/
def IsPlain (c : Char) : Prop := 0x20 < c.toNat ∧ c.toNat < 0x7F

theorem isPlain_of_isDigit {c : Char} (h : c.isDigit = true) : IsPlain c := by
  have hdigit := Char.isDigit_iff_toNat.1 h
  have : '0'.toNat = 48 ∧ '9'.toNat = 57 := ⟨rfl, rfl⟩
  exact ⟨by omega, by omega⟩

theorem toNat_of_isUpper {c : Char} (h : c.isUpper = true) : 65 ≤ c.toNat ∧ c.toNat ≤ 90 :=
  of_decide_eq_true h

/-- Digits have no small form. -/
theorem toLower_of_isDigit {c : Char} (h : c.isDigit = true) : c.toLower = c := by
  have hdigit := Char.isDigit_iff_toNat.1 h
  have : '9'.toNat = 57 := rfl
  exact Char.toLower_eq_of_not_isUpper fun hupper => by
    have := toNat_of_isUpper hupper
    omega

/-- What has a plain small form is plain. -/
theorem isPlain_of_toLower {c : Char} (h : IsPlain c.toLower) : IsPlain c := by
  by_cases hupper : c.isUpper = true
  · have := toNat_of_isUpper hupper
    exact ⟨by omega, by omega⟩
  · rwa [Char.toLower_eq_of_not_isUpper hupper] at h

/-- No word of letters is a decimal number. -/
theorem IsDecimal.map_toLower_ne {cs : List Char} {v : ℚ} (h : IsDecimal cs v) {word : List Char}
    (hword : ∀ c ∈ word, c.isDigit = false) : cs.map Char.toLower ≠ word := by
  rintro rfl
  obtain ⟨hwhole, hfraction, hplaces, hne, -⟩ := h
  rename_i whole fraction places tail power
  obtain ⟨c, hc⟩ := List.exists_mem_of_ne_nil _ hne
  have hdigit : c.isDigit = true := hwhole.append hplaces c hc
  have hmem : c ∈ whole ++ (fraction ++ tail) := by
    rcases List.mem_append.1 hc with hc | hc
    · exact List.mem_append_left _ hc
    · cases hfraction with
      | none => cases hc
      | point => exact List.mem_append_right _ (List.mem_cons_of_mem _ (List.mem_append_left _ hc))
  have hlower := hword _ (List.mem_map_of_mem hmem)
  rw [toLower_of_isDigit hdigit, hdigit] at hlower
  cases hlower

/-- **The numbers without a sign that are read, and their doubles.** -/
theorem unsigned?_eq_some_iff {cs : List Char} {x : Float} :
    unsigned? cs = some x ↔ IsUnsigned cs x := by
  rw [unsigned?_eq]
  constructor
  · intro h
    split at h
    · cases h
      exact .infinity ‹_›
    · split at h
      · cases h
        exact .nan ‹_›
      · obtain ⟨v, hdecimal, hnearest⟩ := decimal?_eq_some_iff.1 h
        exact .decimal hdecimal hnearest
  · rintro (hinfinity | hnan | ⟨hdecimal, hnearest⟩)
    · rw [if_pos hinfinity]
    · rw [hnan]
      rfl
    · have hinf : cs.map Char.toLower ≠ "inf".toList :=
        hdecimal.map_toLower_ne (by simp)
      have hinfinity : cs.map Char.toLower ≠ "infinity".toList :=
        hdecimal.map_toLower_ne (by simp)
      have hnan : cs.map Char.toLower ≠ "nan".toList :=
        hdecimal.map_toLower_ne (by simp)
      rw [if_neg (not_or.2 ⟨hinf, hinfinity⟩), if_neg hnan]
      exact decimal?_eq_some_iff.2 ⟨_, hdecimal, hnearest⟩

/-- A number without a sign is a word in any case or a decimal number. -/
theorem IsUnsigned.word_or_decimal {cs : List Char} {x : Float} (h : IsUnsigned cs x) :
    cs.map Char.toLower ∈ ["inf".toList, "infinity".toList, "nan".toList] ∨
      ∃ v, IsDecimal cs v := by
  cases h with
  | infinity h => rcases h with h | h <;> exact .inl (by simp [h])
  | nan h => exact .inl (by simp [h])
  | decimal h _ => exact .inr ⟨_, h⟩

/-- A decimal number begins with a digit or the point. -/
theorem IsDecimal.head_ne_sign {cs : List Char} {v : ℚ} (h : IsDecimal cs v) :
    ∀ c ∈ cs.head?, c ≠ '-' ∧ c ≠ '+' := by
  cases h with
  | @parts whole fraction places tail power hwhole hfraction hplaces hne hpower =>
      cases whole with
      | cons d whole =>
          rintro c ⟨⟩
          exact hwhole.head_ne_sign _ rfl
      | nil =>
          cases hfraction with
          | none => exact absurd rfl hne
          | point =>
              rintro c ⟨⟩
              decide

/-- No number begins with a second sign. -/
theorem IsUnsigned.head_ne_sign {cs : List Char} {x : Float} (h : IsUnsigned cs x) :
    ∀ c ∈ cs.head?, c ≠ '-' ∧ c ≠ '+' := by
  rcases h.word_or_decimal with hword | ⟨v, hdecimal⟩
  · intro c hc
    have halpha : ∀ word ∈ ["inf".toList, "infinity".toList, "nan".toList],
        ∀ d ∈ word.head?, d.isAlpha = true := by simp
    have hlower := halpha _ hword c.toLower (by simp [Option.mem_def.1 hc])
    constructor <;> (rintro rfl; cases hlower)
  · exact hdecimal.head_ne_sign

/-! ### Texts -/

theorem read?_eq (text : String) :
    read? text = (unsigned? (splitSign text.toList).2).map fun x =>
      if (splitSign text.toList).1 then -x else x := by
  rw [read?]
  generalize text.toList = cs
  split
  · rfl
  · exact Option.map_id'.symm
  · rename_i hminus hplus
    rw [splitSign]
    · exact Option.map_id'.symm
    · exact hminus
    · exact hplus

/-- **The reader accepts the texts of the grammar**, and yields the doubles they denote. -/
theorem read?_eq_some_iff {text : String} {x : Float} : read? text = some x ↔ Spells text x := by
  rw [read?_eq]
  constructor
  · intro h
    obtain ⟨y, hy, rfl⟩ := Option.map_eq_some_iff.1 h
    obtain ⟨sign, hsign, htext⟩ := exists_sign text.toList
    exact .signed htext hsign (unsigned?_eq_some_iff.1 hy)
  · rintro ⟨htext, hsign, hcs⟩
    rw [htext, splitSign_append hsign hcs.head_ne_sign, unsigned?_eq_some_iff.2 hcs]
    rfl

/-- Half of the least positive double lies between these two. -/
example : read? "2e-324" = some 0 ∧ read? "+.3E-323" = some 5e-324 := by decide +kernel

/-! ### Characters -/

theorem IsDigits.isPlain {ds : List Char} (h : IsDigits ds) : ∀ c ∈ ds, IsPlain c :=
  fun c hc => isPlain_of_isDigit (h c hc)

theorem IsSign.isPlain {sign : List Char} {negative : Bool} (h : IsSign sign negative) :
    ∀ c ∈ sign, IsPlain c := by
  cases h with
  | none => exact nofun
  | plus => simp [IsPlain]
  | minus => simp [IsPlain]

theorem IsPower.isPlain {cs : List Char} {power : ℤ} (h : IsPower cs power) :
    ∀ c ∈ cs, IsPlain c := by
  cases h with
  | none => exact nofun
  | @exponent letter sign ds negative hletter hsign hne hds =>
      have hletter' : IsPlain letter := by rcases hletter with rfl | rfl <;> simp [IsPlain]
      exact List.forall_mem_cons.2 ⟨hletter', List.forall_mem_append.2 ⟨hsign.isPlain, hds.isPlain⟩⟩

theorem IsDecimal.isPlain {cs : List Char} {v : ℚ} (h : IsDecimal cs v) :
    ∀ c ∈ cs, IsPlain c := by
  cases h with
  | @parts whole fraction places tail power hwhole hfraction hplaces hne hpower =>
      have hfraction' : ∀ c ∈ fraction, IsPlain c := by
        cases hfraction with
        | none => exact nofun
        | point => exact List.forall_mem_cons.2 ⟨by simp [IsPlain], hplaces.isPlain⟩
      exact List.forall_mem_append.2
        ⟨hwhole.isPlain, List.forall_mem_append.2 ⟨hfraction', hpower.isPlain⟩⟩

theorem IsUnsigned.isPlain {cs : List Char} {x : Float} (h : IsUnsigned cs x) :
    ∀ c ∈ cs, IsPlain c := by
  rcases h.word_or_decimal with hword | ⟨v, hdecimal⟩
  · have hplain : ∀ word ∈ ["inf".toList, "infinity".toList, "nan".toList],
        ∀ d ∈ word, IsPlain d := by simp [IsPlain]
    exact fun c hc => isPlain_of_toLower (hplain _ hword _ (List.mem_map_of_mem hc))
  · exact hdecimal.isPlain

/-- No text of the grammar has a blank in it. -/
theorem Spells.isPlain {text : String} {x : Float} (h : Spells text x) :
    ∀ c ∈ text.toList, IsPlain c := by
  cases h with
  | signed htext hsign hcs =>
      rw [htext]
      exact List.forall_mem_append.2 ⟨hsign.isPlain, hcs.isPlain⟩

end MarkovLogic.Decimal
