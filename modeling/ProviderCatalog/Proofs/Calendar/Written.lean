import ProviderCatalog.Proofs.Calendar.Parts

/-!
# Written dates

A date that is written in one of the layouts is read back as that date. The layouts are tried one
after the other, and none of those before reads another date: a text that begins with a letter
begins with no year, the short name of a month with a blank behind it is no full name except in
May, and a day with a blank behind it is no year of four digits. What can be read as a date at all
is made of digits, letters, blanks, hyphens and commas.

## Main definitions

* `Date.Written`: the ways to write a date.
* `isDatePoint`: what can stand in a written date.

## Main results

* `Date.Written.read?_eq`: a written date denotes the date.
* `Date.Written.trimmed`: a written date neither begins nor ends with a blank.
* `Date.read?_toText`: the normal form of a date denotes the date.
* `Date.isDatePoint_of_read?`: what a text that denotes a date is made of.
-/

namespace ProviderCatalog

variable {x : CodePoint} {t gap : Text} {names : List Text} {n : Nat}

/-! ### Ways to write a date -/

/-- The ways to write a date: in numbers with hyphens, with the full or the short name of the month
in front, or with the day in front. -/
inductive Date.Written (d : Date) : Text → Prop
  | numbers {month day : Text} (hmonth : IsNumeral d.month month) (hday : IsNumeral d.day day) :
      Written d (padded 4 d.year ++ .scalar '-' :: (month ++ .scalar '-' :: day))
  | monthFirst {name gap day gap' : Text} (hname : NamesMonth monthNames d.month name)
      (hgap : IsGap gap) (hday : IsNumeral d.day day) (hgap' : IsGap gap') :
      Written d (name ++ (gap ++ (day ++ .scalar ',' :: (gap' ++ padded 4 d.year))))
  | shortMonthFirst {name gap day gap' : Text} (hname : NamesMonth shortMonthNames d.month name)
      (hgap : IsGap gap) (hday : IsNumeral d.day day) (hgap' : IsGap gap') :
      Written d (name ++ (gap ++ (day ++ .scalar ',' :: (gap' ++ padded 4 d.year))))
  | dayFirst {name gap day gap' : Text} (hname : NamesMonth monthNames d.month name)
      (hgap : IsGap gap) (hday : IsNumeral d.day day) (hgap' : IsGap gap') :
      Written d (day ++ (gap ++ (name ++ (gap' ++ padded 4 d.year))))

/-- A written date consists of digits and hyphens. -/
theorem Date.mem_toText {d : Date} {x : CodePoint} (h : x ∈ d.toText) :
    ∃ c : Char, x = .scalar c ∧ (c.isDigit = true ∨ c = '-') := by
  have hpadded {width n : Nat} (hx : x ∈ padded width n) :
      ∃ c : Char, x = .scalar c ∧ (c.isDigit = true ∨ c = '-') := by
    rw [padded_eq] at hx
    obtain ⟨c, hc, rfl⟩ := List.mem_map.mp hx
    exact ⟨c, rfl, Or.inl (isDigit_of_mem_digits hc)⟩
  have hhyphen (hx : x ∈ ("-" : Text)) :
      ∃ c : Char, x = .scalar c ∧ (c.isDigit = true ∨ c = '-') :=
    ⟨'-', List.mem_singleton.mp hx, Or.inr rfl⟩
  simp only [toText, List.mem_append] at h
  rcases h with (((h | h) | h) | h) | h
  · exact hpadded h
  · exact hhyphen h
  · exact hpadded h
  · exact hhyphen h
  · exact hpadded h

/-! ### Reading a written date -/

/-- A month has at most 31 days. -/
theorem daysInMonth_le (year month : Nat) : daysInMonth year month ≤ 31 := by
  unfold daysInMonth
  split
  · split <;> decide
  · split <;> decide

/-- A part that the text begins with is read off it. -/
private theorem readParts?_cons {part : DatePart} {ns ns' : DateNumbers} {t r : Text}
    (h : part.take? ns t = some (ns', r)) (parts : List DatePart) :
    Date.readParts? ns t (part :: parts) = Date.readParts? ns' r parts := by
  rw [Date.readParts?, h, Option.bind_some]

/-- A text that does not begin with the first part of a layout denotes nothing in the layout. -/
private theorem readLayout?_eq_none {part : DatePart} {t : Text}
    (h : part.take? ⟨0, 0, 0⟩ t = none) (parts : List DatePart) :
    Date.readLayout? t (part :: parts) = none := by
  rw [Date.readLayout?, Date.readParts?, h, Option.bind_none, Option.bind_none]

namespace Date

variable {d : Date} {day gap' : Text}

theorem bounds (d : Date) :
    d.year ≤ 9999 ∧ 1 ≤ d.month ∧ d.month ≤ 12 ∧ 1 ≤ d.day ∧ d.day ≤ 31 := by
  obtain ⟨-, hyear, hmonth, hmonth', hday, hday'⟩ := d.exists_date
  exact ⟨hyear, hmonth, hmonth', hday, Nat.le_trans hday' (daysInMonth_le _ _)⟩

theorem ofNumbers?_eq (d : Date) : ofNumbers? d.year d.month d.day = some d :=
  dif_pos d.exists_date

/-- A name at the beginning of a text is no year. -/
private theorem take?_year_of_letter {ns : DateNumbers} (hne : t ≠ [])
    (ht : ∀ x ∈ t, isLetter x = true) (rest : Text) :
    DatePart.take? ns (t ++ rest) .year = none := by
  obtain ⟨x, t, rfl⟩ := List.exists_cons_of_ne_nil hne
  have hx := (isBlank_and_digitValue?_of_isLetter (ht x List.mem_cons_self)).2
  rw [DatePart.take?, List.cons_append, ← List.nil_append (x :: _),
    DatePart.takeYear?_eq_none hx (by decide), Option.map_none]

private theorem readLayout?_numbers {month : Text} (hmonth : IsNumeral d.month month)
    (hday : IsNumeral d.day day) :
    readLayout? (padded 4 d.year ++ .scalar '-' :: (month ++ .scalar '-' :: day))
      [.year, .literal '-', .monthNumber, .literal '-', .day] = some d := by
  obtain ⟨hyear, hlow, hhigh, hfirst, hlast⟩ := d.bounds
  rw [readLayout?, readParts?_cons (DatePart.take?_year hyear),
    readParts?_cons (DatePart.take?_literal _),
    readParts?_cons (DatePart.take?_monthNumber hmonth hlow hhigh (by simp; decide)),
    readParts?_cons (DatePart.take?_literal _), ← List.append_nil day,
    readParts?_cons (DatePart.take?_day hday hfirst hlast (by simp))]
  exact d.ofNumbers?_eq

/-- With the name of the month, the year comes last, behind blanks. -/
private theorem readParts?_year {ns : DateNumbers} (hgap : IsGap gap) :
    readParts? ns (gap ++ padded 4 d.year) [.blanks, .year] = some { ns with year := d.year } := by
  have hdigits := areDigits_padded 4 d.year (by decide)
  rw [← List.append_nil (padded 4 d.year), readParts?_cons (DatePart.take?_blanks hgap
      (Text.forall_mem_head?_append hdigits.1 hdigits.isBlank _)),
    readParts?_cons (DatePart.take?_year d.bounds.1)]
  rfl

/-- After the name of the month come the day, a comma and the year. -/
private theorem readLayout?_nameFirst {part : DatePart} {name : Text}
    (hname : ∀ rest, part.take? ⟨0, 0, 0⟩ (name ++ rest) = some (⟨0, d.month, 0⟩, rest))
    (hgap : IsGap gap) (hday : IsNumeral d.day day) (hgap' : IsGap gap') :
    readLayout? (name ++ (gap ++ (day ++ .scalar ',' :: (gap' ++ padded 4 d.year))))
      [part, .blanks, .day, .literal ',', .blanks, .year] = some d := by
  obtain ⟨-, -, -, hfirst, hlast⟩ := d.bounds
  have hdigits := hday.areDigits (by omega)
  rw [readLayout?, readParts?_cons (hname _),
    readParts?_cons (DatePart.take?_blanks hgap
      (Text.forall_mem_head?_append hdigits.1 hdigits.isBlank _)),
    readParts?_cons (DatePart.take?_day hday hfirst hlast (by simp; decide)),
    readParts?_cons (DatePart.take?_literal _), readParts?_year hgap']
  exact d.ofNumbers?_eq

/-- A short name with a blank behind it is no full name, except in May. -/
private theorem takeName?_short {name : Text} {month : Nat} (hmonth : month ≤ 12) (hne : month ≠ 5)
    (hpos : 1 ≤ month) (hname : NamesMonth shortMonthNames month name) (hgap : IsGap gap)
    (rest : Text) : DatePart.takeName? 1 monthNames (name ++ (gap ++ rest)) = none := by
  have hshort : ∀ full ∈ monthNames, ∀ k < 12, k ≠ 4 → ∀ short ∈ shortMonthNames[k]?,
      ¬ full <+: short := by decide +kernel
  obtain ⟨short, hmem, hspells⟩ := hname
  obtain ⟨hnil, hblanks⟩ := hgap
  obtain ⟨g, gap, rfl⟩ := List.exists_cons_of_ne_nil hnil
  have hletters := (DatePart.smallNames_shortMonthNames short (List.mem_of_getElem? hmem)).2
  have hmap := DatePart.map_lowerPoint_of_spells hspells hletters
  refine DatePart.takeName?_eq_none (fun full hfull hprefix => ?_) 1
  rw [List.map_append, hmap, List.cons_append, List.map_cons, List.append_cons] at hprefix
  have hblank : lowerPoint g ∉ full := by
    intro hg
    have hletter : isLetter g = true := (DatePart.smallNames_monthNames full hfull).2 _ hg
    have hnoBlank := (isBlank_and_digitValue?_of_isLetter hletter).1
    rw [hblanks g List.mem_cons_self] at hnoBlank
    cases hnoBlank
  -- the blank stands at the end of the short name, so a longer full name would have it
  rcases List.prefix_or_prefix_of_prefix hprefix (List.prefix_append _ _) with hle | hle
  · rcases List.prefix_concat_iff.mp hle with rfl | hle
    · exact hblank (by simp)
    · exact hshort full hfull (month - 1) (by omega) (by omega) short hmem hle
  · exact hblank (hle.subset (by simp))

private theorem readLayout?_dayFirst {name : Text} (hname : NamesMonth monthNames d.month name)
    (hgap : IsGap gap) (hday : IsNumeral d.day day) (hgap' : IsGap gap') :
    readLayout? (day ++ (gap ++ (name ++ (gap' ++ padded 4 d.year))))
      [.day, .blanks, .monthName, .blanks, .year] = some d := by
  obtain ⟨-, hlow, -, hfirst, hlast⟩ := d.bounds
  obtain ⟨hne, hletters⟩ := hname.letters DatePart.smallNames_monthNames
  rw [readLayout?, readParts?_cons (DatePart.take?_day hday hfirst hlast
      (Text.forall_mem_head?_append hgap.1
        (fun x hx => CodePoint.digitValue?_of_isBlank (hgap.2 x hx)) _)),
    readParts?_cons (DatePart.take?_blanks hgap (Text.forall_mem_head?_append hne
      (fun x hx => (isBlank_and_digitValue?_of_isLetter (hletters x hx)).1) _)),
    readParts?_cons (DatePart.take?_monthName hlow hname), readParts?_year hgap']
  exact d.ofNumbers?_eq

/-- A text that begins with a day and a blank begins with no year and no name. -/
private theorem readLayout?_of_day {layout : List DatePart} (hlayout : layout ∈ dateLayouts.take 3)
    {n : Nat} (hday : IsNumeral n day) (hn : n < 100) (hgap : IsGap gap) (rest : Text) :
    readLayout? (day ++ (gap ++ rest)) layout = none := by
  obtain ⟨hne, hdigits⟩ := hday.areDigits hn
  obtain ⟨hnil, hblanks⟩ := hgap
  have hletter : ∀ x ∈ (day ++ (gap ++ rest)).head?, isLetter x = false := by
    refine Text.forall_mem_head?_append hne (fun x hx => Bool.eq_false_iff.mpr fun hx' => ?_) _
    have hdigit := hdigits x hx
    rw [(isBlank_and_digitValue?_of_isLetter hx').2] at hdigit
    cases hdigit
  have hyear : DatePart.takeYear? (day ++ (gap ++ rest)) = none := by
    obtain ⟨g, gap, rfl⟩ := List.exists_cons_of_ne_nil hnil
    have hlength := hday.length_le hn
    exact DatePart.takeYear?_eq_none
      (CodePoint.digitValue?_of_isBlank (hblanks g List.mem_cons_self)) (by omega) _
  simp only [dateLayouts, List.take_succ_cons, List.take_zero, List.mem_cons, List.not_mem_nil,
    or_false] at hlayout
  rcases hlayout with rfl | rfl | rfl
  · exact readLayout?_eq_none (by rw [DatePart.take?, hyear, Option.map_none]) _
  · exact readLayout?_eq_none (by rw [DatePart.take?, DatePart.takeName?_eq_none_of_head
      DatePart.smallNames_monthNames hletter, Option.map_none]) _
  · have hshort := DatePart.takeName?_eq_none_of_head DatePart.smallNames_shortMonthNames hletter 1
    rw [shortMonthNames] at hshort
    exact readLayout?_eq_none (by rw [DatePart.take?, hshort, Option.map_none]) _

/-- A date that is written in one of the layouts denotes the date: no layout that is tried before
reads another one from it. -/
theorem Written.read?_eq (h : d.Written t) : Date.read? t = some d := by
  obtain ⟨hyear, hlow, hhigh, hfirst, hlast⟩ := d.bounds
  rw [Date.read?, dateLayouts]
  cases h with
  | numbers hmonth hday => rw [List.findSome?_cons, readLayout?_numbers hmonth hday]
  | monthFirst hname hgap hday hgap' =>
    obtain ⟨hne, hletters⟩ := hname.letters DatePart.smallNames_monthNames
    rw [List.findSome?_cons, readLayout?_eq_none (take?_year_of_letter hne hletters _),
      List.findSome?_cons, readLayout?_nameFirst
        (fun _ => DatePart.take?_monthName hlow hname) hgap hday hgap']
  | @shortMonthFirst name gap day gap' hname hgap hday hgap' =>
    obtain ⟨hne, hletters⟩ := hname.letters DatePart.smallNames_shortMonthNames
    rw [List.findSome?_cons, readLayout?_eq_none (take?_year_of_letter hne hletters _),
      List.findSome?_cons]
    by_cases hmay : d.month = 5
    · have hfull : NamesMonth monthNames d.month name := by
        rw [hmay] at hname ⊢
        exact hname
      rw [readLayout?_nameFirst (fun _ => DatePart.take?_monthName hlow hfull) hgap hday hgap']
    · have hnone : DatePart.take? ⟨0, 0, 0⟩
          (name ++ (gap ++ (day ++ .scalar ',' :: (gap' ++ padded 4 d.year)))) .monthName =
            none := by
        rw [DatePart.take?, takeName?_short hhigh hmay hlow hname hgap, Option.map_none]
      rw [readLayout?_eq_none hnone, List.findSome?_cons, readLayout?_nameFirst
        (fun _ => DatePart.take?_monthShortName hlow hname) hgap hday hgap']
  | dayFirst hname hgap hday hgap' =>
    have hnone {layout : List DatePart} (hlayout : layout ∈ dateLayouts.take 3) (rest : Text) :=
      readLayout?_of_day hlayout hday (by omega) hgap rest
    rw [List.findSome?_cons, hnone (by decide), List.findSome?_cons, hnone (by decide),
      List.findSome?_cons, hnone (by decide), List.findSome?_cons,
      readLayout?_dayFirst hname hgap hday hgap']

/-- The normal form of a date is one of the ways to write it. -/
theorem written_toText (d : Date) : d.Written d.toText := by
  have hform : d.toText =
      padded 4 d.year ++ .scalar '-' :: (padded 2 d.month ++ .scalar '-' :: padded 2 d.day) := by
    simp [toText, Text.ofString, Text.ofChars]
  rw [hform]
  exact .numbers (.inr rfl) (.inr rfl)

/-- The normal form of a date denotes the date. -/
theorem read?_toText (d : Date) : Date.read? d.toText = some d := d.written_toText.read?_eq

/-- A written date begins and ends with a digit or a letter. -/
theorem Written.trimmed (h : d.Written t) : t ≠ [] ∧ t.trim = t := by
  obtain ⟨hyear, hlow, hhigh, hfirst, hlast⟩ := d.bounds
  have hdigits {t : Text} (ht : AreDigits t) : t ≠ [] ∧ t.trim = t :=
    ⟨ht.1, Text.trim_eq_self_of_forall ht.isBlank⟩
  have hname {names : List Text} {name : Text} (hsmall : DatePart.SmallNames names)
      (hname : NamesMonth names d.month name) : name ≠ [] ∧ name.trim = name := by
    obtain ⟨hne, hletters⟩ := hname.letters hsmall
    exact ⟨hne, Text.trim_eq_self_of_forall
      fun x hx => (isBlank_and_digitValue?_of_isLetter (hletters x hx)).1⟩
  have hbetween {s t : Text} (mid : Text) (hs : s ≠ [] ∧ s.trim = s) (ht : t ≠ [] ∧ t.trim = t) :
      s ++ (mid ++ t) ≠ [] ∧ (s ++ (mid ++ t)).trim = s ++ (mid ++ t) :=
    ⟨List.append_ne_nil_of_left_ne_nil hs.1 _, Text.trim_between hs.2 hs.1 mid ht.2 ht.1⟩
  have hyears := hdigits (areDigits_padded 4 d.year (by decide))
  cases h with
  | @numbers month day hmonth hday =>
    have hnumbers := hbetween (.scalar '-' :: (month ++ [.scalar '-'])) hyears
      (hdigits (hday.areDigits (by omega)))
    simpa only [List.append_assoc, List.cons_append, List.nil_append] using hnumbers
  | @monthFirst name gap day gap' hmonth hgap hday hgap' =>
    simpa only [List.append_assoc, List.cons_append] using
      hbetween (gap ++ (day ++ .scalar ',' :: gap')) (hname DatePart.smallNames_monthNames hmonth)
        hyears
  | @shortMonthFirst name gap day gap' hmonth hgap hday hgap' =>
    simpa only [List.append_assoc, List.cons_append] using
      hbetween (gap ++ (day ++ .scalar ',' :: gap'))
        (hname DatePart.smallNames_shortMonthNames hmonth) hyears
  | @dayFirst name gap day gap' hmonth hgap hday hgap' =>
    simpa only [List.append_assoc] using
      hbetween (gap ++ (name ++ gap')) (hdigits (hday.areDigits (by omega))) hyears

end Date

/-! ### What dates are made of -/

/-- Whether a code point can stand in a date: a digit, a letter of ASCII, a blank, a hyphen or a
comma. -/
def isDatePoint (x : CodePoint) : Bool :=
  x.digitValue?.isSome || isLetter x || x.isBlank || x == .scalar '-' || x == .scalar ','

namespace DatePart

/-- The rest of a text behind a beginning that can stand in a date. -/
private def IsBehind (t rest : Text) : Prop :=
  ∃ used, t = used ++ rest ∧ ∀ x ∈ used, isDatePoint x = true

private theorem isBehind_one {t : Text} (hx : isDatePoint x = true) : IsBehind (x :: t) t :=
  ⟨[x], rfl, List.forall_mem_singleton.mpr hx⟩

private theorem isBehind_two {y : CodePoint} {t : Text} (hx : isDatePoint x = true)
    (hy : isDatePoint y = true) : IsBehind (x :: y :: t) t :=
  ⟨[x, y], rfl, List.forall_mem_cons.mpr ⟨hx, List.forall_mem_singleton.mpr hy⟩⟩

theorem isDatePoint_of_digitValue? (h : x.digitValue? = some n) : isDatePoint x = true := by
  simp [isDatePoint, h]

theorem isDatePoint_of_digitBetween? {low high : Nat} (h : digitBetween? low high x = some n) :
    isDatePoint x = true := by
  cases hvalue : x.digitValue? with
  | some k => exact isDatePoint_of_digitValue? hvalue
  | none =>
    rw [digitBetween?_eq_none low high hvalue] at h
    cases h

private theorem isDatePoint_of_map {low high : Nat} {t r : Text}
    (h : (digitBetween? low high x).map (·, t) = some (n, r)) : isDatePoint x = true ∧ t = r := by
  obtain ⟨m, hm, heq⟩ := Option.map_eq_some_iff.mp h
  cases heq
  exact ⟨isDatePoint_of_digitBetween? hm, rfl⟩

private theorem isBehind_takeMonth? {r : Text} (h : takeMonth? t = some (n, r)) :
    IsBehind t r := by
  unfold takeMonth? at h
  split at h
  · cases h
  · obtain ⟨ha, rfl⟩ := isDatePoint_of_map h
    exact isBehind_one ha
  · split at h
    · rename_i ha hb
      have hpoint := isDatePoint_of_digitBetween? ha
      split at h
      · cases h
        exact isBehind_two hpoint (isDatePoint_of_digitBetween? hb)
      · cases h
        exact isBehind_one hpoint
    · rename_i ha hb
      split at h
      · cases h
      · cases h
        exact isBehind_two (isDatePoint_of_digitBetween? ha) (isDatePoint_of_digitBetween? hb)
    · obtain ⟨ha, rfl⟩ := isDatePoint_of_map h
      exact isBehind_one ha

private theorem isBehind_takeDay? {r : Text} (h : takeDay? t = some (n, r)) : IsBehind t r := by
  unfold takeDay? at h
  split at h
  · cases h
  · obtain ⟨ha, rfl⟩ := isDatePoint_of_map h
    exact isBehind_one ha
  · split at h
    · rename_i ha
      have hpoint := isDatePoint_of_digitBetween? ha
      split at h
      · rename_i hb
        cases h
        exact isBehind_two hpoint (isDatePoint_of_digitBetween? hb)
      · cases h
        exact isBehind_one hpoint
    · rename_i ha
      obtain ⟨hb, rfl⟩ := isDatePoint_of_map h
      exact isBehind_two (isDatePoint_of_digitBetween? ha) hb
    · rename_i k _ _ ha
      have hpoint := isDatePoint_of_digitBetween? ha
      split at h
      · rename_i hb
        cases h
        split at hb
        · exact isBehind_two hpoint (isDatePoint_of_digitValue? hb)
        · cases hb
      · cases h
        exact isBehind_one hpoint
    · split at h
      · rename_i hblank
        obtain ⟨hb, rfl⟩ := isDatePoint_of_map h
        rw [beq_iff_eq.mp hblank]
        exact isBehind_two (by decide) hb
      · cases h

private theorem isBehind_takeName? (hsmall : SmallNames names) {k : Nat} {r : Text}
    (h : takeName? k names t = some (n, r)) : IsBehind t r := by
  induction names generalizing k with
  | nil => cases h
  | cons name names ih =>
    obtain ⟨⟨-, hletters⟩, hrest⟩ := List.forall_mem_cons.mp hsmall
    rw [takeName?] at h
    split at h
    · rename_i hmatch
      cases h
      refine ⟨t.take name.length, (List.take_append_drop _ _).symm, fun x hx => ?_⟩
      have hprefix := matchesName_take_iff.mp hmatch
      have hmem : lowerPoint x ∈ name := by
        rw [List.prefix_iff_eq_take.mp hprefix, ← List.map_take]
        exact List.mem_map_of_mem hx
      have hletter : isLetter x = true := hletters _ hmem
      simp [isDatePoint, hletter]
    · exact ih hrest h

private theorem isBehind_takeYear? {r : Text} (h : takeYear? t = some (n, r)) : IsBehind t r := by
  have hdigits {ds : Text} {k m : Nat} (h : Text.digitsValueFrom k ds = some m) :
      ∀ x ∈ ds, isDatePoint x = true := by
    induction ds generalizing k with
    | nil => exact List.forall_mem_nil _
    | cons d ds ih =>
      obtain ⟨v, hv, h⟩ := Option.bind_eq_some_iff.mp h
      exact List.forall_mem_cons.mpr ⟨isDatePoint_of_digitValue? hv, ih h⟩
  unfold takeYear? at h
  dsimp only at h
  split at h
  · obtain ⟨m, hm, heq⟩ := Option.map_eq_some_iff.mp h
    cases heq
    refine ⟨t.take 4, (List.take_append_drop _ _).symm, ?_⟩
    rw [Text.digitsValue?] at hm
    split at hm
    · cases hm
    · exact hdigits hm
  · cases h

/-- A part takes only what can stand in a date. -/
private theorem isBehind_take? {part : DatePart}
    (hpart : ∀ c, part = .literal c → c = '-' ∨ c = ',') {ns ns' : DateNumbers} {r : Text}
    (h : part.take? ns t = some (ns', r)) : IsBehind t r := by
  have hmap {taken : Option (Nat × Text)} (f : Nat → DateNumbers)
      (htaken : ∀ m r, taken = some (m, r) → IsBehind t r)
      (h : (taken.map fun x => (f x.1, x.2)) = some (ns', r)) : IsBehind t r := by
    obtain ⟨⟨m, r'⟩, hm, heq⟩ := Option.map_eq_some_iff.mp h
    cases heq
    exact htaken m r' hm
  have hmonth {taken : Option (Nat × Text)} (htaken : ∀ m r, taken = some (m, r) → IsBehind t r)
      (h : (taken.map fun x => ({ ns with month := x.1 }, x.2)) = some (ns', r)) : IsBehind t r :=
    hmap (fun m => { ns with month := m }) htaken h
  cases part with
  | year => exact hmap (fun m => { ns with year := m }) (fun _ _ => isBehind_takeYear?) h
  | monthNumber => exact hmonth (fun _ _ => isBehind_takeMonth?) h
  | monthName => exact hmonth (fun _ _ => isBehind_takeName? smallNames_monthNames) h
  | monthShortName => exact hmonth (fun _ _ => isBehind_takeName? smallNames_shortMonthNames) h
  | day => exact hmap (fun m => { ns with day := m }) (fun _ _ => isBehind_takeDay?) h
  | blanks =>
    cases t with
    | nil => cases h
    | cons x t =>
      rw [take?] at h
      split at h
      · rename_i hx
        cases h
        have hpoint {y : CodePoint} (hy : y.isBlank = true) : isDatePoint y = true := by
          simp [isDatePoint, hy]
        refine ⟨x :: t.takeWhile CodePoint.isBlank, ?_, List.forall_mem_cons.mpr
          ⟨hpoint hx, fun y hy => hpoint (List.mem_takeWhile_imp hy)⟩⟩
        rw [List.cons_append, List.takeWhile_append_dropWhile]
      · cases h
  | literal c =>
    cases t with
    | nil => cases h
    | cons x t =>
      rw [take?] at h
      split at h
      · rename_i hx
        cases h
        rw [beq_iff_eq.mp hx]
        refine isBehind_one ?_
        rcases hpart c rfl with rfl | rfl <;> decide
      · cases h

end DatePart

/-- A text that denotes a date is made of digits, letters, blanks, hyphens and commas. -/
theorem Date.isDatePoint_of_read? {d : Date} (h : Date.read? t = some d) :
    ∀ x ∈ t, isDatePoint x = true := by
  have hparts {parts : List DatePart} (hliteral : ∀ c, .literal c ∈ parts → c = '-' ∨ c = ',')
      {ns ns' : DateNumbers} {t : Text} (h : readParts? ns t parts = some ns') :
      ∀ x ∈ t, isDatePoint x = true := by
    induction parts generalizing ns t with
    | nil =>
      rw [readParts?] at h
      split at h
      · rename_i hempty
        rw [List.isEmpty_iff.mp hempty]
        exact List.forall_mem_nil _
      · cases h
    | cons part parts ih =>
      obtain ⟨⟨ns₁, r⟩, htake, hmore⟩ := Option.bind_eq_some_iff.mp h
      obtain ⟨used, rfl, hused⟩ := DatePart.isBehind_take?
        (fun c hc => hliteral c (hc ▸ List.mem_cons_self)) htake
      exact List.forall_mem_append.mpr
        ⟨hused, ih (fun c hc => hliteral c (List.mem_cons_of_mem _ hc)) hmore⟩
  obtain ⟨layout, hlayout, h⟩ := List.exists_of_findSome?_eq_some h
  obtain ⟨ns, hns, -⟩ := Option.bind_eq_some_iff.mp h
  have hliteral : ∀ layout ∈ dateLayouts, ∀ c, .literal c ∈ layout → c = '-' ∨ c = ',' := by
    simp [dateLayouts]
  exact hparts (hliteral layout hlayout) hns

end ProviderCatalog
