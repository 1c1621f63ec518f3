import ProviderCatalog.Proofs.Calendar.Written
import ProviderCatalog.Proofs.Changelog.Tagging

/-!
# What the headings of releases say

A date is put into normal form exactly if it is written in one of the layouts. The date of a heading
stands in its last group in parentheses, unless a parenthesis that belongs to no group comes after
it. The version of a heading is in normal form, unless what is left of its name after the letter `v`
begins with another one or with a blank.

## Main definitions

* `HasGroup`, `IsLastGroup`: texts with a group in parentheses, and the last of their groups.
* `IsNormalVersion`: versions in normal form.
* `Restarts`: names that are not in normal form without their letter `v`.

## Main results

* `normalizeDate_written`: the normal form of dates.
* `headingDate_lastGroup`: the date of a heading with a group.
* `isNormalVersion_iff`: normal forms are what normalizing leaves alone.
* `version_normal_iff`: the versions, tags and dates of the releases of a changelog.
-/

namespace ProviderCatalog

/-! ### Where a code point occurs -/

namespace Text

variable {x : CodePoint} {t : Text}

theorem idxOf?_append {before : Text} (h : x ∉ before) (after : Text) :
    (before ++ x :: after).idxOf? x = some before.length := by
  have hnone : before.findIdx? (· == x) = none := by
    refine List.findIdx?_eq_none_iff.mpr fun y hy => beq_eq_false_iff_ne.mpr ?_
    rintro rfl
    exact h hy
  have hfound : (x :: after).findIdx? (· == x) = some 0 := by
    rw [List.findIdx?_cons, beq_self_eq_true, if_pos rfl]
  rw [List.idxOf?, List.findIdx?_append, hnone, hfound]
  simp

theorem lastIndexOf?_append {after : Text} (h : x ∉ after) (before : Text) :
    lastIndexOf? x (before ++ x :: after) = some before.length := by
  have hindex : (after.reverse ++ x :: before.reverse).idxOf? x = some after.reverse.length :=
    idxOf?_append (fun hx => h (List.mem_reverse.mp hx)) before.reverse
  rw [lastIndexOf?, List.reverse_append, List.reverse_cons, List.append_assoc,
    List.singleton_append, hindex]
  simp only [Option.map_some, List.length_reverse, List.length_append, List.length_cons,
    Option.some.injEq]
  omega

theorem lastIndexOf?_eq_none (h : x ∉ t) : lastIndexOf? x t = none := by
  rw [lastIndexOf?, Option.map_eq_none_iff, List.idxOf?, List.findIdx?_eq_none_iff]
  intro y hy
  refine beq_eq_false_iff_ne.mpr ?_
  rintro rfl
  exact h (List.mem_reverse.mp hy)

/-- A text splits at the last occurrence of a code point. -/
theorem exists_last_of_mem (h : x ∈ t) : ∃ before after, t = before ++ x :: after ∧ x ∉ after := by
  obtain ⟨after, before, ht, hx⟩ := List.eq_append_cons_of_mem (List.mem_reverse.mpr h)
  refine ⟨before.reverse, after.reverse, ?_, fun hmem => hx (List.mem_reverse.mp hmem)⟩
  rw [← List.reverse_reverse t, ht, List.reverse_append, List.reverse_cons, List.append_assoc,
    List.singleton_append]

end Text

namespace Changelog

variable {t raw version inner after : Text} {r : Release}

/-! ### Dates -/

theorem normalizeDate_toText (d : Date) : normalizeDate d.toText = some d.toText := by
  rw [normalizeDate, d.written_toText.trimmed.2, Date.read?_toText, Option.map_some]

theorem normalizeDate_trim (raw : Text) : normalizeDate raw.trim = normalizeDate raw := by
  rw [normalizeDate, normalizeDate, Text.trim, Text.trim, Text.dropEnds_dropEnds]

/-- What cannot stand in a date is in no text with a date. -/
theorem normalizeDate_eq_none {x : CodePoint} (hx : isDatePoint x = false) (h : x ∈ raw) :
    normalizeDate raw = none := by
  rw [normalizeDate, Option.map_eq_none_iff, Option.eq_none_iff_forall_ne_some]
  intro d hd
  have hblank : x.isBlank = false := by
    simp only [isDatePoint, Bool.or_eq_false_iff] at hx
    exact hx.1.1.2
  have hpoint := Date.isDatePoint_of_read? hd x (Text.mem_dropEnds h hblank)
  rw [hx] at hpoint
  cases hpoint

/-- A date in any of the layouts and between blanks has its normal form, and whatever else has a
normal form has that of a date, which is its own normal form. -/
theorem normalizeDate_written :
    (∀ (d : Date) (t before after : Text), d.Written t → (∀ x ∈ before, x.isBlank = true) →
      (∀ x ∈ after, x.isBlank = true) → normalizeDate (before ++ (t ++ after)) = some d.toText) ∧
    ∀ t, normalizeDate t = none ∨
      ∃ d : Date, normalizeDate t = some d.toText ∧ normalizeDate d.toText = some d.toText := by
  constructor
  · intro d t before after ht hbefore hafter
    obtain ⟨hne, htrim⟩ := ht.trimmed
    rw [normalizeDate, Text.trim, Text.dropEnds_append hbefore htrim hne hafter, ht.read?_eq,
      Option.map_some]
  · intro t
    cases hread : Date.read? t.trim with
    | none => exact .inl (by rw [normalizeDate, hread, Option.map_none])
    | some d =>
      exact .inr ⟨d, by rw [normalizeDate, hread, Option.map_some], normalizeDate_toText d⟩

/-- A leap day is read between a tab and a line feed, and there is no 30 February. -/
theorem normalizeDate_leapDay :
    normalizeDate "\t29 fEBRUARY 2024\n" = some ("2024-02-29" : Text) ∧
      normalizeDate "30 February 2024" = none := by
  have hname : NamesMonth monthNames 2 "fEBRUARY" := ⟨"february", by decide, by decide⟩
  have hday : IsNumeral 29 "29" := .inl (by decide)
  have hgap : IsGap " " := ⟨by decide, by decide⟩
  obtain ⟨hwritten, -⟩ := normalizeDate_written
  have hread := hwritten ⟨2024, 2, 29, by decide⟩ _ "\t" "\n" (.dayFirst hname hgap hday hgap)
    (by decide) (by decide)
  have htext : ("\t29 fEBRUARY 2024\n" : Text) =
      "\t" ++ (("29" ++ (" " ++ ("fEBRUARY" ++ (" " ++ Date.padded 4 2024)))) ++ "\n") := by decide
  rw [htext]
  exact ⟨hread.trans (by decide), by decide +kernel⟩

/-! ### Groups in parentheses -/

/-- A text has a group if parentheses stand in it with no other ones between them. -/
def HasGroup (t : Text) : Prop :=
  ∃ before inner after, t = before ++ .scalar '(' :: (inner ++ .scalar ')' :: after) ∧
    .scalar '(' ∉ inner ∧ .scalar ')' ∉ inner

/-- The last group of a text with what stands before and behind it. -/
structure IsLastGroup (t before inner after : Text) : Prop where
  eq : t = before ++ .scalar '(' :: (inner ++ .scalar ')' :: after)
  opening : .scalar '(' ∉ inner
  closing : .scalar ')' ∉ inner
  last : ¬ HasGroup after

theorem IsLastGroup.hasGroup {before : Text} (h : IsLastGroup t before inner after) : HasGroup t :=
  ⟨before, inner, after, h.eq, h.opening, h.closing⟩

theorem HasGroup.exists_last (h : HasGroup t) :
    ∃ before inner after, IsLastGroup t before inner after := by
  induction hlength : t.length using Nat.strong_induction_on generalizing t with
  | _ n ih =>
    obtain ⟨before, inner, after, rfl, hopen, hclose⟩ := h
    by_cases hafter : HasGroup after
    · have hshorter : after.length < n := by
        simp only [List.length_append, List.length_cons] at hlength
        omega
      obtain ⟨mid, inner', after', hlast⟩ := ih after.length hshorter hafter rfl
      refine ⟨before ++ .scalar '(' :: (inner ++ .scalar ')' :: mid), inner', after', ?_,
        hlast.opening, hlast.closing, hlast.last⟩
      rw [hlast.eq]
      simp
    · exact ⟨before, inner, after, rfl, hopen, hclose, hafter⟩

theorem not_hasGroup (h : .scalar '(' ∉ t ∨ .scalar ')' ∉ t) : ¬ HasGroup t := by
  rintro ⟨before, inner, after, rfl, -⟩
  rcases h with h | h
  · exact h (by simp)
  · exact h (by simp)

/-- Behind the last group, nothing is closed after it is opened. -/
theorem exists_of_not_hasGroup (h : ¬ HasGroup t) (hopen : .scalar '(' ∈ t) :
    ∃ before after, t = before ++ .scalar '(' :: after ∧
      .scalar '(' ∉ after ∧ .scalar ')' ∉ after := by
  obtain ⟨before, after, rfl, hafter⟩ := Text.exists_last_of_mem hopen
  refine ⟨before, after, rfl, hafter, fun hclose => h ?_⟩
  obtain ⟨inner, rest, rfl, hinner⟩ := List.eq_append_cons_of_mem hclose
  exact ⟨before, inner, rest, rfl, fun hx => hafter (List.mem_append_left _ hx), hinner⟩

/-- The date of a heading stands between the last parentheses, if they are in order. -/
theorem headingDate_between (before : Text) (hinner : .scalar '(' ∉ inner)
    (hopen : .scalar '(' ∉ after) (hclose : .scalar ')' ∉ after) :
    headingDate (before ++ .scalar '(' :: (inner ++ .scalar ')' :: after)) =
      if inner.trim = [] ∨ inner.trim.lower = ("unreleased" : Text) then none
      else normalizeDate inner := by
  obtain ⟨upto, hupto⟩ : ∃ upto, upto = before ++ .scalar '(' :: inner := ⟨_, rfl⟩
  have hsplit : before ++ .scalar '(' :: (inner ++ .scalar ')' :: after) =
      upto ++ .scalar ')' :: after := by
    simp [hupto]
  have hfirst : Text.lastIndexOf? (.scalar '(') (upto ++ .scalar ')' :: after) =
      some before.length := by
    rw [← hsplit]
    exact Text.lastIndexOf?_append (by simp [hinner, hopen]) before
  have hlast : Text.lastIndexOf? (.scalar ')') (upto ++ .scalar ')' :: after) =
      some upto.length :=
    Text.lastIndexOf?_append hclose upto
  have horder : ¬ upto.length ≤ before.length := by
    rw [hupto, List.length_append, List.length_cons]
    omega
  have hcandidate : upto.drop (before.length + 1) = inner := by
    rw [hupto, List.append_cons]
    exact List.drop_left' (by simp)
  rw [hsplit, headingDate, hfirst, hlast]
  dsimp only
  rw [if_neg horder, List.take_left, hcandidate, normalizeDate_trim]
  simp only [Bool.or_eq_true, List.isEmpty_iff, beq_iff_eq]

/-- A parenthesis that is opened last and not closed leaves a heading without a date. -/
theorem headingDate_unclosed (before : Text) (hopen : .scalar '(' ∉ after)
    (hclose : .scalar ')' ∉ after) : headingDate (before ++ .scalar '(' :: after) = none := by
  have hfirst := Text.lastIndexOf?_append hopen before
  by_cases hmem : .scalar ')' ∈ before
  · obtain ⟨start, rest, rfl, hrest⟩ := Text.exists_last_of_mem hmem
    have hlast : Text.lastIndexOf? (.scalar ')')
        ((start ++ .scalar ')' :: rest) ++ .scalar '(' :: after) = some start.length := by
      rw [List.append_assoc]
      exact Text.lastIndexOf?_append (by simp [hrest, hclose]) start
    have horder : start.length ≤ (start ++ .scalar ')' :: rest).length := by
      rw [List.length_append]
      omega
    rw [headingDate, hfirst, hlast]
    dsimp only
    rw [if_pos horder]
  · have hlast : Text.lastIndexOf? (.scalar ')') (before ++ .scalar '(' :: after) = none :=
      Text.lastIndexOf?_eq_none (by simp [hmem, hclose])
    rw [headingDate, hfirst, hlast]

/-- A parenthesis behind the last group hides the date: one that is opened and not closed is taken
for the beginning of the group, one that is closed for its end. -/
theorem headingDate_hidden {before : Text} (h : IsLastGroup t before inner after)
    (hafter : .scalar '(' ∈ after ∨ .scalar ')' ∈ after) : headingDate t = none := by
  by_cases hopen : .scalar '(' ∈ after
  · obtain ⟨mid, rest, rfl, hopen', hclose'⟩ := exists_of_not_hasGroup h.last hopen
    have hheading : t =
        (before ++ .scalar '(' :: (inner ++ .scalar ')' :: mid)) ++ .scalar '(' :: rest := by
      rw [h.eq]
      simp
    rw [hheading, headingDate_unclosed _ hopen' hclose']
  · obtain ⟨mid, rest, rfl, hrest⟩ := Text.exists_last_of_mem (hafter.resolve_left hopen)
    have hmid : .scalar '(' ∉ mid ∧ .scalar '(' ∉ rest := by simpa using hopen
    have hheading : t =
        before ++ .scalar '(' :: ((inner ++ .scalar ')' :: mid) ++ .scalar ')' :: rest) := by
      rw [h.eq]
      simp
    -- the group seems to go on up to the last parenthesis, and no date has one in it
    have hnone : normalizeDate (inner ++ .scalar ')' :: mid) = none :=
      normalizeDate_eq_none (x := .scalar ')') (by decide)
        (List.mem_append_right _ List.mem_cons_self)
    rw [hheading, headingDate_between before (by simp [h.opening, hmid.1]) hmid.2 hrest, hnone,
      ite_self]

/-- Among the groups of a heading there is a last one. The date of the heading is what this group
says, if no parenthesis stands behind it, and else there is none. -/
theorem headingDate_lastGroup (heading : Text) (h : HasGroup heading) :
    (∃ before inner after, IsLastGroup heading before inner after) ∧
      ∀ before inner after, IsLastGroup heading before inner after →
        headingDate heading =
          if .scalar '(' ∈ after ∨ .scalar ')' ∈ after then none
          else if inner.trim = [] ∨ inner.trim.lower = ("unreleased" : Text) then none
          else normalizeDate inner := by
  refine ⟨h.exists_last, fun before inner after hlast => ?_⟩
  split
  · exact headingDate_hidden hlast ‹_›
  · rename_i hafter
    obtain ⟨hopen, hclose⟩ := not_or.mp hafter
    rw [hlast.eq, headingDate_between before hlast.opening hopen hclose]

/-- The second of two groups is the date, but not with a parenthesis behind it. -/
theorem headingDate_lastGroup_of_two :
    headingDate "1.0.0 (beta) (2024-02-03) x" = some ("2024-02-03" : Text) ∧
      headingDate "1.0.0 (beta) (2024-02-03) x)" = none := by
  have hfirst : IsLastGroup "1.0.0 (beta) (2024-02-03) x" "1.0.0 (beta) " "2024-02-03" " x" :=
    ⟨by decide, by decide, by decide, not_hasGroup (.inl (by decide))⟩
  have hsecond : IsLastGroup "1.0.0 (beta) (2024-02-03) x)" "1.0.0 (beta) " "2024-02-03" " x)" :=
    ⟨by decide, by decide, by decide, not_hasGroup (.inl (by decide))⟩
  obtain ⟨-, hdate⟩ := headingDate_lastGroup _ hfirst.hasGroup
  obtain ⟨-, hnone⟩ := headingDate_lastGroup _ hsecond.hasGroup
  exact ⟨(hdate _ _ _ hfirst).trans (by decide +kernel),
    (hnone _ _ _ hsecond).trans (by decide +kernel)⟩

/-- A parenthesis that is opened behind the last group hides the date of the group. -/
theorem headingDate_ne_lastGroup :
    ¬ ∀ heading before inner after : Text, IsLastGroup heading before inner after →
      headingDate heading =
        if inner.trim = [] ∨ inner.trim.lower = ("unreleased" : Text) then none
        else normalizeDate inner := by
  intro h
  have hlast : IsLastGroup "1.0.0 (2024-02-03) (draft" "1.0.0 " "2024-02-03" " (draft" :=
    ⟨by decide, by decide, by decide, not_hasGroup (.inr (by decide))⟩
  exact absurd (h _ _ _ _ hlast) (by decide +kernel)

/-- Whatever date a heading has is in normal form. -/
theorem exists_date_of_headingDate {heading date : Text} (h : headingDate heading = some date) :
    ∃ d : Date, date = d.toText := by
  have hwritten {raw : Text} (hdate : normalizeDate raw = some date) :
      ∃ d : Date, date = d.toText := by
    obtain ⟨d, -, rfl⟩ := Option.map_eq_some_iff.mp hdate
    exact ⟨d, rfl⟩
  rw [headingDate] at h
  split at h
  · split at h
    · cases h
    · dsimp only at h
      split at h
      · cases h
      · exact hwritten h
  · cases h

/-! ### Versions -/

/-- A version is in normal form if it is not empty, is trimmed, does not begin with the letter `v`
and does not stand for unreleased changes. -/
structure IsNormalVersion (version : Text) : Prop where
  nonempty : version ≠ []
  trimmed : version.trim = version
  letter : ∀ x ∈ version.head?, isVersionLetter x = false
  released : version.lower ≠ ("unreleased" : Text)

theorem bareName_eq_self_iff (hne : version ≠ []) : bareName version = version ↔
    version.trim = version ∧ ∀ x ∈ version.head?, isVersionLetter x = false := by
  obtain ⟨p, rest, rfl⟩ := List.exists_cons_of_ne_nil hne
  constructor
  · intro h
    have hlength := (bareName_suffix (p :: rest)).length_le
    rw [h] at hlength
    have htrim : Text.trim (p :: rest) = p :: rest := (Text.trim_infix _).eq_of_length_le hlength
    rw [bareName, htrim] at h
    dsimp only at h
    refine ⟨htrim, fun x hx => ?_⟩
    cases hx
    cases hp : isVersionLetter p with
    | false => rfl
    | true =>
      rw [hp, if_pos rfl] at h
      exact absurd h.symm (List.cons_ne_self p rest)
  · rintro ⟨htrim, hletter⟩
    rw [bareName, htrim]
    dsimp only
    rw [hletter p rfl, if_neg Bool.false_ne_true]

/-- Normalizing leaves exactly the normal forms alone. -/
theorem isNormalVersion_iff :
    IsNormalVersion version ↔ version ≠ [] ∧ normalizeVersion version = version := by
  rw [normalizeVersion_eq]
  constructor
  · intro h
    rw [(bareName_eq_self_iff h.nonempty).mpr ⟨h.trimmed, h.letter⟩, if_neg h.released]
    exact ⟨h.nonempty, rfl⟩
  · rintro ⟨hne, h⟩
    split at h
    · exact absurd h.symm hne
    · rename_i hreleased
      obtain ⟨htrim, hletter⟩ := (bareName_eq_self_iff hne).mp h
      rw [h] at hreleased
      exact ⟨hne, htrim, hletter, hreleased⟩

theorem lower_normalizeVersion_ne (raw : Text) :
    (normalizeVersion raw).lower ≠ ("unreleased" : Text) := by
  rw [normalizeVersion_eq]
  split
  · decide
  · assumption

/-- Without its letter `v`, a name begins with another one or with a blank. -/
def Restarts (name : Text) : Prop :=
  ∃ p q rest, name.trim = p :: q :: rest ∧ isVersionLetter p = true ∧
    (isVersionLetter q = true ∨ q.isBlank = true)

/-- The version of a name is in normal form if it begins like one, as it ends like one. -/
theorem isNormalVersion_normalizeVersion (hne : normalizeVersion raw ≠ []) :
    IsNormalVersion (normalizeVersion raw) ↔
      ∀ x ∈ (normalizeVersion raw).head?, isVersionLetter x = false ∧ x.isBlank = false := by
  constructor
  · intro h x hx
    exact ⟨h.letter x hx, (Text.trim_eq_self_iff.mp h.trimmed).1 x hx⟩
  · intro h
    exact ⟨hne, Text.trim_eq_self_iff.mpr
      ⟨fun x hx => (h x hx).2, isBlank_getLast?_normalizeVersion raw⟩, fun x hx => (h x hx).1,
      lower_normalizeVersion_ne raw⟩

/-- A name restarts if what is left of it without its letter begins as no version does. -/
theorem restarts_iff : Restarts raw ↔
    ∃ x ∈ (bareName raw).head?, isVersionLetter x = true ∨ x.isBlank = true := by
  have hstart : ∀ x ∈ raw.trim.head?, x.isBlank = false :=
    (Text.trim_eq_self_iff.mp (Text.dropEnds_dropEnds _ raw)).1
  rw [Restarts, bareName]
  generalize raw.trim = name at hstart ⊢
  cases name with
  | nil => simp
  | cons p rest =>
    cases hp : isVersionLetter p with
    | false => simp [hp, hstart p rfl]
    | true =>
      cases rest with
      | nil => simp [hp]
      | cons q rest => simp [hp]

theorem isNormalVersion_iff_not_restarts (hne : normalizeVersion raw ≠ []) :
    IsNormalVersion (normalizeVersion raw) ↔ ¬ Restarts raw := by
  have hversion : normalizeVersion raw = bareName raw := by
    rw [normalizeVersion_eq] at hne ⊢
    split
    · rename_i hreleased
      exact absurd (if_pos hreleased) hne
    · rfl
  rw [isNormalVersion_normalizeVersion hne, hversion, restarts_iff]
  simp

/-! ### The releases of a changelog -/

/-- The version of a release is not empty, does not end with a blank and is not the word for
unreleased changes, its tag is the version after a `v`, and its date, if it has one, is in normal
form. Its version is in normal form unless the name in the heading of its block begins with the
letter `v` twice or with the letter and a blank. -/
theorem version_normal_iff {limit : Int} (h : r ∈ read limit t) :
    (r.version ≠ [] ∧ (∀ x ∈ r.version.getLast?, x.isBlank = false) ∧
      r.version.lower ≠ ("unreleased" : Text) ∧ r.tag = .scalar 'v' :: r.version ∧
      ∀ date ∈ r.date, ∃ d : Date, date = d.toText) ∧
    (IsNormalVersion r.version ↔ normalizeVersion r.version = r.version) ∧
    ∃ b ∈ blocks t, b.release? = some r ∧
      (IsNormalVersion r.version ↔ ¬ Restarts (headingVersion (b.1.dropPrefix "##").trim)) := by
  obtain ⟨b, hb, hr⟩ := exists_block_of_mem_read h
  obtain ⟨opened, hopened, rfl⟩ := Option.map_eq_some_iff.mp hr
  obtain ⟨-, hne, htag, hversion, hdate⟩ := ofHeading?_eq_some hopened
  refine ⟨⟨hne, ?_, ?_, htag, fun date hmem => ?_⟩, ?_, b, hb, hr, ?_⟩
  · rw [hversion]
    exact isBlank_getLast?_normalizeVersion _
  · rw [hversion]
    exact lower_normalizeVersion_ne _
  · exact exists_date_of_headingDate (hdate ▸ hmem)
  · exact isNormalVersion_iff.trans (and_iff_right hne)
  · rw [hversion] at hne ⊢
    exact isNormalVersion_iff_not_restarts hne

/-- A changelog of two releases, the second of which has the letter `v` twice. -/
def restartedSample : Text := "## [V1.0.0 ] (31 January 2024)\n## vv0.9"

theorem version_normal_iff_of_restarted :
    ⟨"1.0.0", "v1.0.0", some "2024-01-31", []⟩ ∈ read 5 restartedSample ∧
      IsNormalVersion "1.0.0" ∧ ⟨"v0.9", "vv0.9", none, []⟩ ∈ read 5 restartedSample ∧
      ¬ IsNormalVersion "v0.9" := by
  have hfirst : ⟨"1.0.0", "v1.0.0", some "2024-01-31", []⟩ ∈ read 5 restartedSample := by
    decide +kernel
  have hsecond : ⟨"v0.9", "vv0.9", none, []⟩ ∈ read 5 restartedSample := by decide +kernel
  obtain ⟨-, hnormal, -⟩ := version_normal_iff hfirst
  obtain ⟨-, hrestarted, -⟩ := version_normal_iff hsecond
  exact ⟨hfirst, hnormal.mpr (by decide +kernel), hsecond,
    fun h => absurd (hrestarted.mp h) (by decide +kernel)⟩

/-- The version of a heading that has the letter `v` twice begins with the letter. -/
theorem exists_version_not_normal :
    ¬ ∀ (limit : Int) (t : Text), ∀ r ∈ read limit t, IsNormalVersion r.version := by
  intro h
  have hread : ⟨"v1.0", "vv1.0", none, []⟩ ∈ read 10 "## vv1.0\n" := by decide +kernel
  exact absurd ((h 10 "## vv1.0\n" _ hread).letter (.scalar 'v') rfl) (by decide)

end Changelog

end ProviderCatalog
