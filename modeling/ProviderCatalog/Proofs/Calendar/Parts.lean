import ProviderCatalog.Calendar.Layout
import ProviderCatalog.Proofs.Text.Lines
import Mathlib.Data.List.Basic

/-!
# The parts of written dates

A number that is filled up with zeros is a row of ASCII digits that spells the number. Each part of
a layout takes such a number, with or without the zero, or the name of a month in any case, or
blanks, and leaves what is behind it. Digits, letters and blanks exclude each other, which is why a
part ends where the next one begins.

## Main definitions

* `Date.digits`: the digits of a number, filled up with zeros.
* `IsNumeral`, `NamesMonth`, `IsGap`: what stands for a number, a month, or blanks of a layout.

## Main results

* `Date.padded_eq`, `Date.ofDigitChars_digits`: the digits of a padded number, and their value.
* `DatePart.take?_year`, `DatePart.take?_monthNumber`, `DatePart.take?_day`,
  `DatePart.take?_monthName`, `DatePart.take?_monthShortName`, `DatePart.take?_blanks`: what each
  part takes from the beginning of a text.
-/

namespace ProviderCatalog

/-! ### Padded numbers -/

theorem Text.ofNat_of_lt {n : Nat} (hn : n < 10) : Text.ofNat n = [.scalar n.digitChar] := by
  simp [ofNat, ofString, ofChars, Nat.toDigits_of_lt_base hn]

theorem Text.ofNat_of_le {n : Nat} (h : 10 ≤ n) (hn : n < 100) :
    Text.ofNat n = [.scalar (n / 10).digitChar, .scalar (n % 10).digitChar] := by
  have htens : Nat.toDigits 10 (n / 10) = [(n / 10).digitChar] :=
    Nat.toDigits_of_lt_base (Nat.div_lt_of_lt_mul hn)
  simp [ofNat, ofString, ofChars, Nat.toDigits_of_base_le (by decide) h, htens]

namespace Date

/-- The digits of a number, with zeros in front up to a width. -/
def digits (width n : Nat) : List Char :=
  List.replicate (width - (Nat.toDigits 10 n).length) '0' ++ Nat.toDigits 10 n

theorem padded_eq (width n : Nat) : padded width n = Text.ofChars (digits width n) := by
  simp [padded, digits, Text.ofNat, Text.ofString, Text.ofChars]

theorem isDigit_of_mem_digits {width n : Nat} {c : Char} (h : c ∈ digits width n) :
    c.isDigit = true := by
  rcases List.mem_append.mp h with h | h
  · rw [List.eq_of_mem_replicate h]
    rfl
  · exact Nat.isDigit_of_mem_toDigits (by decide) (by decide) h

theorem ofDigitChars_digits (width n : Nat) : Nat.ofDigitChars 10 (digits width n) 0 = n := by
  simp [digits, Nat.ofDigitChars_append, Nat.ofDigitChars_replicate_zero]

/-- A number that is not too long already is padded to its width. -/
theorem length_digits {width n : Nat} (h : (Nat.toDigits 10 n).length ≤ width) :
    (digits width n).length = width := by
  rw [digits, List.length_append, List.length_replicate]
  omega

/-- A padded number below a hundred is two digits. -/
theorem padded_two {n : Nat} (hn : n < 100) :
    padded 2 n = [.scalar (n / 10).digitChar, .scalar (n % 10).digitChar] := by
  rw [padded]
  rcases Nat.lt_or_ge n 10 with hlow | hhigh
  · rw [Text.ofNat_of_lt hlow, Nat.div_eq_of_lt hlow, Nat.mod_eq_of_lt hlow]
    rfl
  · rw [Text.ofNat_of_le hhigh hn]
    rfl

end Date

/-! ### Digits -/

theorem digitValue?_of_isDigit {c : Char} (h : c.isDigit = true) :
    digitValue? c = some (c.toNat - 0x30) := by
  obtain ⟨hlow, hhigh⟩ : '0' ≤ c ∧ c ≤ '9' := by
    simpa [Char.isDigit, Char.le_def] using h
  have hascii : c.toNat < 128 := Nat.lt_of_le_of_lt (m := '9'.toNat) hhigh (by decide)
  simp [digitValue?, hascii, hlow, hhigh]

theorem Text.digitsValueFrom_ofChars {cs : List Char} (h : ∀ c ∈ cs, c.isDigit = true) (n : Nat) :
    Text.digitsValueFrom n (Text.ofChars cs) = some (Nat.ofDigitChars 10 cs n) := by
  induction cs generalizing n with
  | nil => rfl
  | cons c cs ih =>
    obtain ⟨hc, hcs⟩ := List.forall_mem_cons.mp h
    rw [Nat.ofDigitChars_cons, ← ih hcs]
    simp [Text.ofChars, Text.digitsValueFrom, CodePoint.digitValue?, digitValue?_of_isDigit hc]

namespace DatePart

theorem digitBetween?_digitChar (low high : Nat) {d : Nat} (hd : d < 10) :
    digitBetween? low high (.scalar d.digitChar) =
      if low ≤ d ∧ d ≤ high then some d else none := by
  have hdigit : ∀ d < 10, '0' ≤ d.digitChar ∧ d.digitChar ≤ '9' ∧ d.digitChar.toNat - 0x30 = d := by
    decide
  obtain ⟨hlow, hhigh, hvalue⟩ := hdigit d hd
  simp [digitBetween?, hlow, hhigh, hvalue]

theorem digitValue?_digitChar {d : Nat} (hd : d < 10) :
    CodePoint.digitValue? (.scalar d.digitChar) = some d := by
  have hall : ∀ d < 10, CodePoint.digitValue? (.scalar d.digitChar) = some d := by decide
  exact hall d hd

/-! ### The parts of a written date -/

variable {n : Nat} (rest : Text)

theorem takeYear?_padded (hn : n ≤ 9999) :
    takeYear? (Date.padded 4 n ++ rest) = some (n, rest) := by
  have hlength : (Date.padded 4 n).length = 4 := by
    rw [Date.padded_eq, Text.ofChars, List.length_map]
    exact Date.length_digits ((Nat.length_toDigits_le_iff (by decide) (by decide)).mpr (by omega))
  have hne : (Date.padded 4 n).isEmpty = false := by
    rw [List.isEmpty_eq_false_iff]
    exact List.ne_nil_of_length_pos (by omega)
  have hvalue : Text.digitsValue? (Date.padded 4 n) = some n := by
    rw [Text.digitsValue?, hne, Date.padded_eq,
      Text.digitsValueFrom_ofChars fun _ => Date.isDigit_of_mem_digits, Date.ofDigitChars_digits]
    rfl
  rw [takeYear?, List.take_left' hlength, List.drop_left' hlength, hvalue, hlength]
  rfl

theorem takeMonth?_padded (hlow : 1 ≤ n) (hhigh : n ≤ 12) :
    takeMonth? (Date.padded 2 n ++ rest) = some (n, rest) := by
  have htens : n / 10 < 10 := by omega
  have hones : n % 10 < 10 := by omega
  rw [Date.padded_two (by omega)]
  simp only [List.cons_append, List.nil_append, takeMonth?, digitBetween?_digitChar _ _ htens,
    digitBetween?_digitChar _ _ hones]
  by_cases hsmall : n < 10
  · have hzero : n / 10 = 0 := by omega
    have hn : n % 10 = n := by omega
    have hpos : n ≠ 0 := by omega
    simp [hzero, hn, hpos, Nat.le_of_lt_succ hsmall]
  · have hone : n / 10 = 1 := by omega
    have hn : 10 + n % 10 = n := by omega
    have htwo : n % 10 ≤ 2 := by omega
    simp [hone, hn, htwo, Nat.le_of_lt_succ hones]

theorem takeDay?_padded (hlow : 1 ≤ n) (hhigh : n ≤ 31) :
    takeDay? (Date.padded 2 n ++ rest) = some (n, rest) := by
  have htens : n / 10 < 10 := by omega
  have hones : n % 10 < 10 := by omega
  rw [Date.padded_two (by omega)]
  simp only [List.cons_append, List.nil_append, takeDay?, digitBetween?_digitChar _ _ htens,
    digitBetween?_digitChar _ _ hones, digitValue?_digitChar hones]
  obtain hzero | hone | htwo | hthree : n / 10 = 0 ∨ n / 10 = 1 ∨ n / 10 = 2 ∨ n / 10 = 3 := by
    omega
  · have hn : n % 10 = n := by omega
    simp [hzero, hn, hlow, (by omega : n ≤ 9)]
  · simp [hone, (by omega : 10 + n % 10 = n)]
  · simp [htwo, (by omega : 20 + n % 10 = n)]
  · simp [hthree, (by omega : n % 10 ≤ 1), (by omega : 30 + n % 10 = n)]

end DatePart

/-! ### Blanks, digits and letters -/

variable {x : CodePoint} {t rest name gap : Text} {names : List Text} {n : Nat}

/-- No blank is a digit of some script. -/
theorem CodePoint.digitValue?_of_isBlank (h : x.isBlank = true) : x.digitValue? = none := by
  have hascii : ∀ n < 0x21, ProviderCatalog.digitValue? (.ofNat n) = none := by decide
  have hothers : ∀ n ∈ [0x85, 0xA0, 0x1680, 0x2000, 0x2001, 0x2002, 0x2003, 0x2004, 0x2005, 0x2006,
      0x2007, 0x2008, 0x2009, 0x200A, 0x2028, 0x2029, 0x202F, 0x205F, 0x3000],
      ProviderCatalog.digitValue? (.ofNat n) = none := by decide +kernel
  cases x with
  | surrogate _ => rfl
  | scalar c =>
    have hval (d : Char) : d.val.toNat = d.toNat := rfl
    simp only [isBlank, satisfies, isBlankChar, Bool.or_eq_true, Bool.and_eq_true,
      decide_eq_true_eq, beq_iff_eq, Char.le_def, UInt32.le_iff_toNat_le, hval,
      ← Char.toNat_inj] at h
    rw [digitValue?, ← Char.ofNat_toNat c]
    by_cases hc : c.toNat < 0x21
    · exact hascii _ hc
    · refine hothers _ ?_
      simp only [List.mem_cons, List.not_mem_nil, or_false]
      simp only [Char.reduceToNat] at h
      omega

/-- A code point with a capital letter of ASCII made small. -/
def lowerPoint : CodePoint → CodePoint
  | .scalar c => .scalar c.toLower
  | p => p

/-- A code point with a small letter of ASCII made capital. -/
def upperPoint : CodePoint → CodePoint
  | .scalar c => .scalar c.toUpper
  | p => p

/-- Whether a code point is a letter of ASCII, small or capital. -/
def isLetter (x : CodePoint) : Bool := CodePoint.satisfies Char.isLower (lowerPoint x)

theorem isLower_iff {c : Char} : c.isLower = true ↔ 0x61 ≤ c.toNat ∧ c.toNat ≤ 0x7A := by
  unfold Char.isLower
  simp [UInt32.le_iff_toNat_le, ← Char.toNat_val]

theorem toNat_toLower (c : Char) :
    c.toLower.toNat = if 0x41 ≤ c.toNat ∧ c.toNat ≤ 0x5A then c.toNat + 0x20 else c.toNat := by
  unfold Char.toLower
  simp only [UInt32.le_iff_toNat_le, ge_iff_le]
  split
  · rename_i h
    refine Eq.trans ?_ (if_pos h).symm
    have hval : c.val.toNat = c.toNat := rfl
    simp [← Char.toNat_val] at h ⊢
    omega
  · rename_i h
    exact (if_neg h).symm

theorem toNat_toUpper_of_isLower {c : Char} (h : c.isLower = true) :
    c.toUpper.toNat = c.toNat - 0x20 := by
  have hc := isLower_iff.mp h
  unfold Char.toUpper
  simp only [UInt32.le_iff_toNat_le]
  split
  · have hval : c.val.toNat = c.toNat := rfl
    simp [← Char.toNat_val]
    omega
  · rename_i hnot
    exact absurd hc hnot

theorem isBlank_and_digitValue?_of_isLetter (h : isLetter x = true) :
    x.isBlank = false ∧ x.digitValue? = none := by
  cases x with
  | surrogate _ => cases h
  | scalar c =>
    have hc : 0x41 ≤ c.toNat ∧ c.toNat ≤ 0x5A ∨ 0x61 ≤ c.toNat ∧ c.toNat ≤ 0x7A := by
      have hsmall := isLower_iff.mp h
      rw [toNat_toLower] at hsmall
      split at hsmall <;> omega
    have hascii : c.toNat < 128 := by omega
    constructor
    · simp [CodePoint.isBlank, CodePoint.satisfies, isBlankChar, Char.le_def,
        UInt32.le_iff_toNat_le, ← Char.toNat_inj]
      omega
    · simp [CodePoint.digitValue?, digitValue?, Char.le_def, UInt32.le_iff_toNat_le, hascii]
      omega

/-! ### Numbers, names and gaps -/

/-- A text spells a name if it has the letters of the name, each of them as it is or capital. -/
def Spells (name t : Text) : Prop := List.Forall₂ (fun l x => x = l ∨ x = upperPoint l) name t

instance (name t : Text) : Decidable (Spells name t) :=
  inferInstanceAs (Decidable (List.Forall₂ _ name t))

/-- A text names a month if it spells the month's name in a list of names. -/
def NamesMonth (names : List Text) (month : Nat) (t : Text) : Prop :=
  ∃ name, names[month - 1]? = some name ∧ Spells name t

/-- The first three letters of the names of the months. -/
def shortMonthNames : List Text := monthNames.map (·.take 3)

/-- A number is written with or without a zero in front of a single digit. -/
def IsNumeral (n : Nat) (t : Text) : Prop := t = Text.ofNat n ∨ t = Date.padded 2 n

/-- A gap is made of one or more blanks. -/
def IsGap (t : Text) : Prop := t ≠ [] ∧ ∀ x ∈ t, x.isBlank = true

/-! ### Numerals -/

/-- Digits of some script, at least one. -/
def AreDigits (t : Text) : Prop := t ≠ [] ∧ ∀ x ∈ t, x.digitValue?.isSome = true

theorem areDigits_padded (width n : Nat) (hwidth : 0 < width) :
    AreDigits (Date.padded width n) := by
  refine ⟨?_, fun x hx => ?_⟩
  · rw [Date.padded_eq, Text.ofChars, ne_eq, List.map_eq_nil_iff, Date.digits,
      List.append_eq_nil_iff, List.replicate_eq_nil_iff]
    rintro ⟨hshort, hnil⟩
    rw [hnil] at hshort
    simp at hshort
    omega
  · rw [Date.padded_eq] at hx
    obtain ⟨c, hc, rfl⟩ := List.mem_map.mp hx
    rw [CodePoint.digitValue?, digitValue?_of_isDigit (Date.isDigit_of_mem_digits hc)]
    rfl

/-- Numbers below a hundred are filled up to two digits or have a single one. -/
theorem IsNumeral.cases (h : IsNumeral n t) (hn : n < 100) :
    t = Date.padded 2 n ∨ n < 10 ∧ t = [.scalar n.digitChar] := by
  rcases h with ht | ht
  · rcases Nat.lt_or_ge n 10 with hlow | hhigh
    · exact .inr ⟨hlow, ht.trans (Text.ofNat_of_lt hlow)⟩
    · exact .inl ((ht.trans (Text.ofNat_of_le hhigh hn)).trans (Date.padded_two hn).symm)
  · exact .inl ht

theorem IsNumeral.areDigits (h : IsNumeral n t) (hn : n < 100) : AreDigits t := by
  rcases h.cases hn with ht | ⟨hlow, ht⟩
  · rw [ht]
    exact areDigits_padded 2 n (by decide)
  · rw [ht]
    refine ⟨List.cons_ne_nil _ _, List.forall_mem_singleton.mpr ?_⟩
    rw [DatePart.digitValue?_digitChar hlow]
    rfl

theorem IsNumeral.length_le (h : IsNumeral n t) (hn : n < 100) : t.length ≤ 2 := by
  rcases h.cases hn with ht | ⟨-, ht⟩
  · rw [ht, Date.padded_two hn]
    exact Nat.le_refl 2
  · rw [ht]
    exact Nat.le_succ 1

namespace DatePart

theorem digitBetween?_eq_none (low high : Nat) (h : x.digitValue? = none) :
    digitBetween? low high x = none := by
  cases x with
  | surrogate _ => rfl
  | scalar c =>
    rw [digitBetween?, if_neg]
    intro hc
    simp only [Bool.and_eq_true, decide_eq_true_eq] at hc
    have hdigit : c.isDigit = true := by
      simpa [Char.isDigit, Char.le_def] using And.intro hc.1.1.1 hc.1.1.2
    rw [CodePoint.digitValue?, digitValue?_of_isDigit hdigit] at h
    cases h

/-- A single digit is the number of a month if no digit follows it. -/
theorem takeMonth?_numeral (h : IsNumeral n t) (hlow : 1 ≤ n) (hhigh : n ≤ 12)
    (hrest : ∀ x ∈ rest.head?, x.digitValue? = none) :
    takeMonth? (t ++ rest) = some (n, rest) := by
  rcases h.cases (by omega) with ht | ⟨hn, ht⟩
  · rw [ht, takeMonth?_padded rest hlow hhigh]
  · have hsingle : digitBetween? 1 9 (.scalar n.digitChar) = some n := by
      rw [digitBetween?_digitChar _ _ hn, if_pos ⟨hlow, Nat.le_of_lt_succ hn⟩]
    rw [ht]
    cases rest with
    | nil => rw [List.append_nil, takeMonth?, hsingle, Option.map_some]
    | cons b rest =>
      have hb := digitBetween?_eq_none 0 9 (hrest b rfl)
      rw [List.singleton_append, takeMonth?, hb]
      simp [hsingle]

theorem takeDay?_numeral (h : IsNumeral n t) (hlow : 1 ≤ n) (hhigh : n ≤ 31)
    (hrest : ∀ x ∈ rest.head?, x.digitValue? = none) :
    takeDay? (t ++ rest) = some (n, rest) := by
  rcases h.cases (by omega) with ht | ⟨hn, ht⟩
  · rw [ht, takeDay?_padded rest hlow hhigh]
  · have hsingle (low : Nat) (h : low ≤ n) :
        digitBetween? low 9 (.scalar n.digitChar) = some n := by
      rw [digitBetween?_digitChar _ _ hn, if_pos ⟨h, Nat.le_of_lt_succ hn⟩]
    rw [ht]
    cases rest with
    | nil => rw [List.append_nil, takeDay?, hsingle 1 hlow, Option.map_some]
    | cons b rest =>
      have hb := hrest b rfl
      rw [List.singleton_append, takeDay?, hsingle 0 (Nat.zero_le n)]
      simp only [hb, digitBetween?_eq_none 0 1 hb, ite_self]
      split
      · rename_i hthree
        rw [Option.some.inj hthree]
      · rename_i hzero
        exact absurd (Option.some.inj hzero) (Nat.ne_of_gt hlow)
      · rename_i hother
        rw [Option.some.inj hother]
      · rename_i hnone
        cases hnone

/-! ### Names -/

/-- All names are in small letters. -/
abbrev SmallNames (names : List Text) : Prop :=
  ∀ name ∈ names, name ≠ [] ∧ ∀ x ∈ name, CodePoint.satisfies Char.isLower x = true

/-- No name of a list begins another one of the list. -/
abbrev PrefixFree (names : List Text) : Prop :=
  names.Pairwise fun a b => ¬ a <+: b ∧ ¬ b <+: a

theorem matchesName_take_iff :
    matchesName name (t.take name.length) = true ↔ name <+: t.map lowerPoint := by
  rw [matchesName, beq_iff_eq, List.prefix_iff_eq_take, ← List.map_take, eq_comm]
  rfl

theorem lowerPoint_of_isLower (h : CodePoint.satisfies Char.isLower x = true) :
    lowerPoint x = x ∧ lowerPoint (upperPoint x) = x := by
  cases x with
  | surrogate _ => cases h
  | scalar c =>
    have hc := isLower_iff.mp h
    have hlower : c.toLower = c := by
      rw [← Char.toNat_inj, toNat_toLower, if_neg (by omega)]
    have hupper : c.toUpper.toLower = c := by
      rw [← Char.toNat_inj, toNat_toLower, toNat_toUpper_of_isLower h, if_pos (by omega)]
      omega
    exact ⟨congrArg _ hlower, congrArg _ hupper⟩

/-- What spells a name in small letters is the name if its capitals are made small. -/
theorem map_lowerPoint_of_spells (h : Spells name t)
    (hname : ∀ x ∈ name, CodePoint.satisfies Char.isLower x = true) :
    t.map lowerPoint = name := by
  rw [Spells] at h
  induction h with
  | nil => rfl
  | cons hx _ ih =>
    obtain ⟨hsmall, hrest⟩ := List.forall_mem_cons.mp hname
    obtain ⟨hlower, hupper⟩ := lowerPoint_of_isLower hsmall
    rw [List.map_cons, ih hrest]
    rcases hx with rfl | rfl
    · rw [hlower]
    · rw [hupper]

/-- The first name that a text begins with is the one that it spells. -/
theorem takeName?_append (hfree : PrefixFree names) {k : Nat} (hname : names[k]? = some name)
    (ht : t.map lowerPoint = name) (n : Nat) (rest : Text) :
    takeName? n names (t ++ rest) = some (n + k, rest) := by
  have hlength : t.length = name.length := by rw [← ht, List.length_map]
  have hprefix : name <+: (t ++ rest).map lowerPoint := by
    rw [List.map_append, ht]
    exact List.prefix_append _ _
  induction names generalizing n k with
  | nil => cases hname
  | cons a names ih =>
    obtain ⟨ha, hrest⟩ := List.pairwise_cons.mp hfree
    rw [takeName?]
    cases k with
    | zero =>
      cases hname
      rw [if_pos (matchesName_take_iff.mpr hprefix), List.drop_left' hlength, Nat.add_zero]
    | succ k =>
      have hmem : name ∈ names := List.mem_of_getElem? hname
      have hother : ¬ a <+: (t ++ rest).map lowerPoint := fun hp =>
        (List.prefix_or_prefix_of_prefix hp hprefix).elim (ha name hmem).1 (ha name hmem).2
      rw [if_neg (mt matchesName_take_iff.mp hother), ih hrest hname, Nat.add_right_comm,
        Nat.add_assoc]

theorem takeName?_eq_none (h : ∀ name ∈ names, ¬ name <+: t.map lowerPoint) (n : Nat) :
    takeName? n names t = none := by
  induction names generalizing n with
  | nil => rfl
  | cons a names ih =>
    obtain ⟨ha, hrest⟩ := List.forall_mem_cons.mp h
    rw [takeName?, if_neg (mt matchesName_take_iff.mp ha), ih hrest]

theorem takeName?_of_namesMonth (hsmall : SmallNames names) (hfree : PrefixFree names)
    (hn : 1 ≤ n) (h : NamesMonth names n t) (rest : Text) :
    takeName? 1 names (t ++ rest) = some (n, rest) := by
  obtain ⟨name, hname, hspells⟩ := h
  have ht := map_lowerPoint_of_spells hspells (hsmall name (List.mem_of_getElem? hname)).2
  rw [takeName?_append hfree hname ht, Nat.add_sub_cancel' hn]

theorem smallNames_monthNames : SmallNames monthNames := by decide

theorem prefixFree_monthNames : PrefixFree monthNames := by decide

theorem smallNames_shortMonthNames : SmallNames shortMonthNames := by decide

theorem prefixFree_shortMonthNames : PrefixFree shortMonthNames := by decide

end DatePart

/-- What names a month is made of letters. -/
theorem NamesMonth.letters (h : NamesMonth names n t) (hsmall : DatePart.SmallNames names) :
    t ≠ [] ∧ ∀ x ∈ t, isLetter x = true := by
  obtain ⟨name, hname, hspells⟩ := h
  obtain ⟨hne, hletters⟩ := hsmall name (List.mem_of_getElem? hname)
  have ht := DatePart.map_lowerPoint_of_spells hspells hletters
  refine ⟨fun hnil => hne ?_, fun x hx => hletters _ ?_⟩
  · rw [← ht, hnil, List.map_nil]
  · rw [← ht]
    exact List.mem_map_of_mem hx

/-! ### What the parts take -/

theorem AreDigits.isBlank (h : AreDigits t) : ∀ x ∈ t, x.isBlank = false := by
  intro x hx
  cases hblank : x.isBlank with
  | false => rfl
  | true =>
    have hdigit := h.2 x hx
    rw [CodePoint.digitValue?_of_isBlank hblank] at hdigit
    cases hdigit

namespace DatePart

variable {ns : DateNumbers}

theorem take?_year (hn : n ≤ 9999) :
    take? ns (Date.padded 4 n ++ rest) .year = some ({ ns with year := n }, rest) := by
  rw [take?, takeYear?_padded rest hn, Option.map_some]

theorem take?_monthNumber (h : IsNumeral n t) (hlow : 1 ≤ n) (hhigh : n ≤ 12)
    (hrest : ∀ x ∈ rest.head?, x.digitValue? = none) :
    take? ns (t ++ rest) .monthNumber = some ({ ns with month := n }, rest) := by
  rw [take?, takeMonth?_numeral h hlow hhigh hrest, Option.map_some]

theorem take?_day (h : IsNumeral n t) (hlow : 1 ≤ n) (hhigh : n ≤ 31)
    (hrest : ∀ x ∈ rest.head?, x.digitValue? = none) :
    take? ns (t ++ rest) .day = some ({ ns with day := n }, rest) := by
  rw [take?, takeDay?_numeral h hlow hhigh hrest, Option.map_some]

theorem take?_monthName (hn : 1 ≤ n) (h : NamesMonth monthNames n t) :
    take? ns (t ++ rest) .monthName = some ({ ns with month := n }, rest) := by
  rw [take?, takeName?_of_namesMonth smallNames_monthNames prefixFree_monthNames hn h,
    Option.map_some]

theorem take?_monthShortName (hn : 1 ≤ n) (h : NamesMonth shortMonthNames n t) :
    take? ns (t ++ rest) .monthShortName = some ({ ns with month := n }, rest) := by
  have htake := takeName?_of_namesMonth smallNames_shortMonthNames prefixFree_shortMonthNames hn h
    rest
  rw [shortMonthNames] at htake
  rw [take?, htake, Option.map_some]

theorem take?_blanks (hgap : IsGap gap) (hrest : ∀ x ∈ rest.head?, x.isBlank = false) :
    take? ns (gap ++ rest) .blanks = some (ns, rest) := by
  obtain ⟨hne, hblank⟩ := hgap
  obtain ⟨x, gap, rfl⟩ := List.exists_cons_of_ne_nil hne
  obtain ⟨hx, hblanks⟩ := List.forall_mem_cons.mp hblank
  have hdrop : (gap ++ rest).dropWhile CodePoint.isBlank = rest := by
    rw [List.dropWhile_append_of_pos hblanks]
    exact Text.dropLeft_eq_self_iff.mpr hrest
  simp [take?, hx, hdrop]

theorem take?_literal (c : Char) : take? ns (.scalar c :: rest) (.literal c) = some (ns, rest) := by
  simp [take?]

theorem takeYear?_eq_none {before : Text} (hx : x.digitValue? = none) (hbefore : before.length < 4)
    (rest : Text) : takeYear? (before ++ x :: rest) = none := by
  have hnone (n : Nat) (ds after : Text) :
      Text.digitsValueFrom n (ds ++ x :: after) = none := by
    induction ds generalizing n with
    | nil => rw [List.nil_append, Text.digitsValueFrom, hx, Option.bind_none]
    | cons d ds ih =>
      rw [List.cons_append, Text.digitsValueFrom]
      cases d.digitValue? with
      | none => rfl
      | some k => exact ih _
  obtain ⟨k, hk⟩ : ∃ k, 4 - before.length = k + 1 := ⟨3 - before.length, by omega⟩
  have htake : (before ++ x :: rest).take 4 = before ++ x :: rest.take k := by
    rw [List.take_append, List.take_of_length_le (Nat.le_of_lt hbefore), hk, List.take_succ_cons]
  rw [takeYear?, htake]
  split
  · rw [Text.digitsValue?, if_neg (by simp), hnone, Option.map_none]
  · rfl

/-- What does not begin with a letter begins with no name. -/
theorem takeName?_eq_none_of_head (hsmall : SmallNames names)
    (ht : ∀ x ∈ t.head?, isLetter x = false) (n : Nat) : takeName? n names t = none := by
  refine takeName?_eq_none (fun name hname hprefix => ?_) n
  obtain ⟨hne, hletters⟩ := hsmall name hname
  obtain ⟨l, name, rfl⟩ := List.exists_cons_of_ne_nil hne
  cases t with
  | nil => exact List.cons_ne_nil _ _ (List.prefix_nil.mp hprefix)
  | cons x t =>
    obtain ⟨hl, -⟩ := List.cons_prefix_cons.mp hprefix
    have hletter : isLetter x = true := by
      rw [isLetter, ← hl]
      exact hletters l List.mem_cons_self
    rw [ht x rfl] at hletter
    cases hletter

end DatePart

end ProviderCatalog
