import ProviderCatalog.Proofs.Changelog.Headings
import Mathlib.Data.List.TakeDrop

/-!
# Printed changelogs

Releases can be printed as a changelog: a heading for each release, with its version in brackets and
its date in parentheses, a heading for each section, and a bullet for each entry, one per line. If
versions, names and entries hold nothing that the reader takes for markup, reading the changelog
gives the releases back.

## Main definitions

* `Release.printed`, `printed`: the lines of a release, and the text of releases.
* `HasLink`: texts with a link in them.
* `Release.Printable`: releases that hold nothing that is taken for markup.

## Main results

* `ofHeading?_headingLine`, `sectionName_headingLine`, `bulletText_bulletLine`: what a printed line
  says.
* `release?_block`: what the block of a release says.
* `read_printed`: the releases of a printed changelog.
-/

namespace ProviderCatalog.Changelog

variable {t : Text} {r : Release} {s : Section}

/-! ### Printing -/

/-- The end of a heading: the date in parentheses, if there is one. -/
def dateSuffix : Option Text → Text
  | some date => (" (" : Text) ++ date ++ ")"
  | none => []

/-- The heading of a release: its version in brackets, and its date if it has one. -/
def Release.heading (r : Release) : Text := ("[" : Text) ++ r.version ++ "]" ++ dateSuffix r.date

/-- The line that opens a release. -/
def Release.headingLine (r : Release) : Text := "## " ++ r.heading

/-- The line that opens a section. -/
def Section.headingLine (s : Section) : Text := "### " ++ s.name

/-- The line of an entry. -/
def bulletLine (entry : Text) : Text := "* " ++ entry

/-- The lines of a section. -/
def Section.printed (s : Section) : List Text := s.headingLine :: s.entries.map bulletLine

/-- The lines of a release. -/
def Release.printed (r : Release) : List Text := r.headingLine :: r.sections.flatMap Section.printed

/-- Releases as a changelog. -/
def printed (rs : List Release) : Text := Text.join "\n" (rs.flatMap Release.printed)

/-! ### What can be printed -/

/-- Whether a text has a link in it: a label in brackets and a target in parentheses. -/
def HasLink (t : Text) : Prop :=
  ∃ before label target after : Text,
    t = before ++ "[" ++ label ++ "](" ++ target ++ ")" ++ after ∧
      label ≠ [] ∧ .scalar ']' ∉ label ∧ target ≠ [] ∧ .scalar ')' ∉ target

/-- A version that is in normal form and can stand in brackets. -/
structure PlainVersion (version : Text) : Prop where
  phrase : version.IsPhrase
  closing : .scalar ']' ∉ version
  parentheses : .scalar '(' ∉ version ∧ .scalar ')' ∉ version
  letter : ∀ x ∈ version.head?, x ≠ .scalar 'v' ∧ x ≠ .scalar 'V'
  released : version.lower ≠ ("unreleased" : Text)

/-- An entry that has neither links nor code marks. -/
structure PlainEntry (entry : Text) : Prop where
  phrase : entry.IsPhrase
  unmarked : .scalar '\x60' ∉ entry
  unlinked : ¬ HasLink entry

/-- A section whose name ends in no colon and whose entries are plain. -/
structure Section.Printable (s : Section) : Prop where
  name : s.name.IsPhrase
  colon : s.name.getLast? ≠ some (.scalar ':')
  entries : ∀ e ∈ s.entries, PlainEntry e

/-- A release that holds nothing that is taken for markup. -/
structure Release.Printable (r : Release) : Prop where
  version : PlainVersion r.version
  tag : r.tag = .scalar 'v' :: r.version
  date : r.date = none ∨ ∃ d : Date, r.date = some d.toText
  sections : ∀ s ∈ r.sections, s.Printable

/-! ### Written dates -/

/-- A digit or a hyphen ends no line and has no case. -/
private theorem plain_of_dateChar {c : Char} (hc : c.isDigit = true ∨ c = '-') :
    isLineBreakChar c = false ∧ c ≠ 'Σ' ∧ Text.lowerChar c = [c] := by
  have hall : ∀ n < 58, 45 ≤ n → isLineBreakChar (.ofNat n) = false ∧ Char.ofNat n ≠ 'Σ' ∧
      Text.lowerChar (.ofNat n) = [.ofNat n] := by
    decide
  have hrange : 45 ≤ c.toNat ∧ c.toNat < 58 := by
    rcases hc with hc | rfl
    · obtain ⟨hlow, hhigh⟩ : '0'.toNat ≤ c.toNat ∧ c.toNat ≤ '9'.toNat := by
        simpa [Char.isDigit, UInt32.le_iff_toNat_le] using hc
      exact ⟨Nat.le_trans (by decide) hlow, Nat.lt_of_le_of_lt hhigh (by decide)⟩
    · decide
  simpa only [Char.ofNat_toNat] using hall c.toNat hrange.2 hrange.1

private theorem toText_isPhrase (d : Date) : d.toText.IsPhrase := by
  obtain ⟨hne, htrim⟩ := d.written_toText.trimmed
  refine ⟨hne, htrim, fun x hx => ?_⟩
  obtain ⟨c, rfl, hc⟩ := Date.mem_toText hx
  exact (plain_of_dateChar hc).1

private theorem not_mem_toText (d : Date) : .scalar '(' ∉ d.toText := fun h =>
  absurd (Date.isDatePoint_of_read? d.read?_toText _ h) (by decide)

/-- A date is not the word for unreleased changes, since it begins with no letter. -/
private theorem lower_toText_ne (d : Date) : d.toText.lower ≠ ("unreleased" : Text) := by
  obtain ⟨x, rest, hd⟩ := List.exists_cons_of_ne_nil (toText_isPhrase d).nonempty
  have hx : x ∈ d.toText := hd ▸ List.mem_cons_self
  obtain ⟨c, rfl, hc⟩ := Date.mem_toText hx
  obtain ⟨-, hsigma, hlower⟩ := plain_of_dateChar hc
  rw [hd, Text.lower, Text.lowerAfter, hlower]
  · intro h
    obtain rfl : c = 'u' := CodePoint.scalar.inj (List.cons.inj h).1
    revert hc
    decide
  · exact hsigma

/-! ### Headings of releases -/

private theorem heading_eq (r : Release) :
    r.heading = .scalar '[' :: (r.version ++ .scalar ']' :: dateSuffix r.date) := by
  simp [Release.heading, Text.ofString, Text.ofChars]

private theorem dateSuffix_some (t : Text) :
    dateSuffix (some t) = .scalar ' ' :: .scalar '(' :: (t ++ [.scalar ')']) := by
  simp [dateSuffix, Text.ofString, Text.ofChars]

private theorem heading_isPhrase (hr : r.Printable) : r.heading.IsPhrase := by
  have hopening : Text.IsPhrase "[" := ⟨by decide, by decide, by decide⟩
  have hversion := hr.version.phrase.unbroken
  rcases hr.date with hdate | ⟨d, hdate⟩
  · have hclosing : Text.IsPhrase "]" := ⟨by decide, by decide, by decide⟩
    simpa [Release.heading, hdate, dateSuffix] using hopening.between _ hversion hclosing
  · have hmid : ∀ x ∈ r.version ++ ("]" ++ (" (" ++ d.toText)), x.isLineBreak = false :=
      List.forall_mem_append.mpr ⟨hversion, List.forall_mem_append.mpr ⟨by decide,
        List.forall_mem_append.mpr ⟨by decide, (toText_isPhrase d).unbroken⟩⟩⟩
    have hclosing : Text.IsPhrase ")" := ⟨by decide, by decide, by decide⟩
    simpa [Release.heading, hdate, dateSuffix] using hopening.between _ hmid hclosing

/-- What stands in the brackets of a heading is the version. -/
private theorem headingVersion_heading (hr : r.Printable) :
    headingVersion r.heading = r.version := by
  have hclosing := Text.idxOf?_append hr.version.closing (dateSuffix r.date)
  rw [heading_eq, headingVersion, hclosing]
  exact List.take_left

/-- A plain version is in normal form. -/
private theorem normalizeVersion_eq_self {version : Text} (h : PlainVersion version) :
    normalizeVersion version = version := by
  have hletter : ∀ x ∈ version.head?, isVersionLetter x = false := by
    intro x hx
    obtain ⟨hlower, hupper⟩ := h.letter x hx
    simp [isVersionLetter, hlower, hupper]
  exact (isNormalVersion_iff.mp ⟨h.phrase.nonempty, h.phrase.trimmed, hletter, h.released⟩).2

/-- What stands in the parentheses of a heading is the date. -/
private theorem headingDate_heading (hr : r.Printable) : headingDate r.heading = r.date := by
  rcases hr.date with hdate | ⟨d, hdate⟩
  · have hnone : Text.lastIndexOf? (.scalar '(') r.heading = none := by
      refine Text.lastIndexOf?_eq_none ?_
      simp [heading_eq, hdate, dateSuffix, hr.version.parentheses.1]
    rw [headingDate, hnone, hdate]
  · have hheading : r.heading = (.scalar '[' :: (r.version ++ [.scalar ']', .scalar ' '])) ++
        .scalar '(' :: (d.toText ++ [.scalar ')']) := by
      simp [heading_eq, hdate, dateSuffix_some]
    rw [hheading, headingDate_between _ (not_mem_toText d) List.not_mem_nil List.not_mem_nil,
      (toText_isPhrase d).trimmed, normalizeDate_toText, hdate]
    simp [(toText_isPhrase d).nonempty, lower_toText_ne d]

/-- The heading of a release opens the release, still without sections. -/
theorem ofHeading?_headingLine (hr : r.Printable) :
    Release.ofHeading? r.headingLine = some { r with sections := [] } := by
  have hheading := heading_isPhrase hr
  have htrim : (r.headingLine.dropPrefix "##").trim = r.heading := by
    have hdrop : r.headingLine.dropPrefix "##" = .scalar ' ' :: r.heading := rfl
    rw [hdrop, Text.trim_cons_of_blank (by decide) hheading.trimmed]
  have hne : r.heading.isEmpty = false := List.isEmpty_eq_false_iff.mpr hheading.nonempty
  have hversion : r.version.isEmpty = false :=
    List.isEmpty_eq_false_iff.mpr hr.version.phrase.nonempty
  rw [Release.ofHeading?, htrim]
  simp only [hne, headingVersion_heading hr, normalizeVersion_eq_self hr.version, hversion,
    headingDate_heading hr, Bool.false_eq_true, if_false, ← hr.tag]

/-! ### Lines of sections -/

/-- The heading of a section names it. -/
theorem sectionName_headingLine (hs : s.Printable) : sectionName s.headingLine = s.name := by
  have hdrop : s.headingLine.dropPrefix "### " = s.name := rfl
  have hcolon : Text.dropRight (· == .scalar ':') s.name = s.name := by
    refine Text.dropRight_eq_self_iff.mpr fun x hx => beq_eq_false_iff_ne.mpr ?_
    rintro rfl
    exact hs.colon hx
  rw [sectionName, hdrop, hs.name.trimmed, hcolon, hs.name.trimmed]

/-- A span ends before the code point that it looks for. -/
private theorem span_ne_eq {x : CodePoint} {t label rest : Text}
    (h : t.span (· != x) = (label, rest)) : t = label ++ rest ∧ x ∉ label := by
  rw [List.span_eq_takeWhile_dropWhile] at h
  obtain ⟨rfl, rfl⟩ := Prod.mk.inj h
  refine ⟨List.takeWhile_append_dropWhile.symm, fun hx => ?_⟩
  simpa using List.mem_takeWhile_imp hx

/-- Where the reader finds a link, there is one. -/
private theorem hasLink_of_linkAfterBracket? {t : Text} {link : Text × Text}
    (h : linkAfterBracket? t = some link) : HasLink (.scalar '[' :: t) := by
  unfold linkAfterBracket? at h
  split at h
  rename_i label rest hlabel
  obtain ⟨rfl, hclosing⟩ := span_ne_eq hlabel
  split at h
  · split at h
    · rename_i rest _ target after htarget
      obtain ⟨rfl, hend⟩ := span_ne_eq htarget
      refine ⟨[], _, _, after, ?_, List.cons_ne_nil _ _, hclosing, List.cons_ne_nil _ _, hend⟩
      simp [Text.ofString, Text.ofChars]
    · cases h
  · cases h

private theorem unlink_eq_self {t : Text} (h : ¬ HasLink t) : unlink t = t := by
  rw [unlink]
  induction t with
  | nil => rfl
  | cons x t ih =>
    have hrest : ¬ HasLink t := by
      rintro ⟨before, label, target, after, rfl, hlink⟩
      exact h ⟨x :: before, label, target, after, rfl, hlink⟩
    rw [unlinkFrom, ih hrest]
    split
    · rename_i hx
      obtain rfl : x = .scalar '[' := beq_iff_eq.mp hx
      cases hlink : linkAfterBracket? t with
      | none => rfl
      | some link => exact absurd (hasLink_of_linkAfterBracket? hlink) h
    · rfl

/-- The bullet of an entry says the entry. -/
theorem bulletText_bulletLine {entry : Text} (h : PlainEntry entry) :
    bulletText (bulletLine entry) = entry := by
  have hmark : Text.IsPhrase "*" := ⟨by decide, by decide, by decide⟩
  have hline : (bulletLine entry).trim = bulletLine entry :=
    (hmark.between " " (by decide) h.phrase).trimmed
  have hdrop : (bulletLine entry).drop 1 = .scalar ' ' :: entry := rfl
  have herase : entry.erase (.scalar '\x60') = entry := by
    refine List.filter_eq_self.mpr fun x hx => bne_iff_ne.mpr ?_
    rintro rfl
    exact h.unmarked hx
  rw [bulletText, hline, hdrop, Text.trim_cons_of_blank (by decide) h.phrase.trimmed,
    unlink_eq_self h.unlinked, herase, h.phrase.trimmed]

/-! ### Blocks -/

/-- A list of groups, each an element of a class with others behind it, is cut into the groups. -/
private theorem cutAt_flatMap {α β : Type} {p : α → Bool} {head : β → α} {tail : β → List α}
    {bs : List β} (hhead : ∀ b ∈ bs, p (head b) = true)
    (htail : ∀ b ∈ bs, ∀ x ∈ tail b, p x = false) :
    cutAt p (bs.flatMap fun b => head b :: tail b) =
      ([], bs.map fun b => (head b, tail b)) := by
  induction bs with
  | nil => rfl
  | cons b bs ih =>
    obtain ⟨hb, hheads⟩ := List.forall_mem_cons.mp hhead
    obtain ⟨hxs, htails⟩ := List.forall_mem_cons.mp htail
    rw [List.flatMap_cons, List.cons_append, cutAt_cons_pos hb, cutAt_append hxs, ih hheads htails,
      List.append_nil]
    rfl

/-- The block of a release. -/
def Release.block (r : Release) : Block := (r.headingLine, r.sections.flatMap Section.printed)

private theorem opensSection_bulletLine (entry : Text) :
    opensSection (bulletLine entry) = false := rfl

/-- The bullets of a section say its entries. -/
private theorem entryTexts_bulletLines {es : List Text} (h : ∀ e ∈ es, PlainEntry e) :
    entryTexts (es.map bulletLine) = es := by
  have hbullets : (es.map bulletLine).filter isBullet = es.map bulletLine := by
    refine List.filter_eq_self.mpr fun x hx => ?_
    obtain ⟨e, -, rfl⟩ := List.mem_map.mp hx
    rfl
  have htexts : (es.map bulletLine).map bulletText = es := by
    have hsame : ∀ e ∈ es, (bulletText ∘ bulletLine) e = id e := by
      intro e he
      rw [Function.comp_apply, bulletText_bulletLine (h e he), id_eq]
    rw [List.map_map, List.map_congr_left hsame, List.map_id]
  rw [entryTexts, hbullets, htexts]
  exact List.filter_eq_self.mpr fun e he => by simp [(h e he).phrase.nonempty]

/-- The block of a release has its sections. -/
private theorem sections_block (hr : r.Printable) : r.block.sections = r.sections := by
  have hcut : cutAt opensSection r.block.2 =
      ([], r.sections.map fun s => (s.headingLine, s.entries.map bulletLine)) := by
    refine cutAt_flatMap (fun _ _ => rfl) fun s _ x hx => ?_
    obtain ⟨e, -, rfl⟩ := List.mem_map.mp hx
    exact opensSection_bulletLine e
  have hsections : ∀ s ∈ r.sections,
      (⟨sectionName s.headingLine, entryTexts (s.entries.map bulletLine)⟩ : Section) = s := by
    intro s hs
    rw [sectionName_headingLine (hr.sections s hs),
      entryTexts_bulletLines (hr.sections s hs).entries]
  rw [Block.sections, hcut]
  exact (List.map_map).trans ((List.map_congr_left hsections).trans (List.map_id _))

/-- The block of a release says the release. -/
theorem release?_block (hr : r.Printable) : r.block.release? = some r := by
  rw [Block.release?, sections_block hr, Release.block, ofHeading?_headingLine hr]
  rfl

/-! ### Changelogs -/

/-- Each printed line is a phrase, and the first line of a release alone is a release heading. -/
private theorem headingLine_isPhrase (hr : r.Printable) : r.headingLine.IsPhrase := by
  have hmark : Text.IsPhrase "##" := ⟨by decide, by decide, by decide⟩
  exact hmark.between " " (by decide) (heading_isPhrase hr)

private theorem line_of_section (hs : s.Printable) {line : Text} (h : line ∈ s.printed) :
    line.IsPhrase ∧ isReleaseHeading line = false := by
  rcases List.mem_cons.mp h with rfl | h
  · have hmark : Text.IsPhrase "###" := ⟨by decide, by decide, by decide⟩
    exact ⟨hmark.between " " (by decide) hs.name, rfl⟩
  · obtain ⟨e, he, rfl⟩ := List.mem_map.mp h
    have hmark : Text.IsPhrase "*" := ⟨by decide, by decide, by decide⟩
    exact ⟨hmark.between " " (by decide) (hs.entries e he).phrase, rfl⟩

private theorem isPhrase_of_mem_printed {rs : List Release} (hrs : ∀ r ∈ rs, r.Printable)
    {line : Text} (h : line ∈ rs.flatMap Release.printed) : line.IsPhrase := by
  obtain ⟨r, hr, hline⟩ := List.mem_flatMap.mp h
  rcases List.mem_cons.mp hline with rfl | hline
  · exact headingLine_isPhrase (hrs r hr)
  · obtain ⟨s, hs, hline⟩ := List.mem_flatMap.mp hline
    exact (line_of_section ((hrs r hr).sections s hs) hline).1

/-- A text whose lines are those of printed releases has their blocks. -/
private theorem blocks_of_lines {rs : List Release} (hrs : ∀ r ∈ rs, r.Printable) {t : Text}
    (ht : t.lines.map Text.trim = rs.flatMap Release.printed) :
    blocks t = rs.map Release.block := by
  have hcut : cutAt isReleaseHeading (rs.flatMap Release.printed) = ([], rs.map Release.block) := by
    refine cutAt_flatMap (fun _ _ => rfl) fun r hr line hline => ?_
    obtain ⟨s, hs, hline⟩ := List.mem_flatMap.mp hline
    exact (line_of_section ((hrs r hr).sections s hs) hline).2
  rw [blocks, ht, hcut]

/-- Releases that are printed as a changelog, whether or not its last line is ended, are read back
with any limit that admits all of them. -/
theorem read_printed (limit : Int) (rs : List Release) (hrs : ∀ r ∈ rs, r.Printable)
    (hlimit : max 1 (rs.length : Int) ≤ limit) :
    read limit (printed rs) = rs ∧ read limit (printed rs ++ "\n") = rs := by
  have hphrases {line : Text} (h : line ∈ rs.flatMap Release.printed) : line.IsPhrase :=
    isPhrase_of_mem_printed hrs h
  have htrim : (rs.flatMap Release.printed).map Text.trim = rs.flatMap Release.printed :=
    (List.map_congr_left fun line h => (hphrases h).trimmed).trans (List.map_id _)
  have hread {t : Text} (ht : t.lines = rs.flatMap Release.printed) : read limit t = rs := by
    have hreleases : (rs.map Release.block).filterMap Block.release? = rs := by
      rw [List.filterMap_map]
      exact (List.filterMap_congr fun r hr => release?_block (hrs r hr)).trans List.filterMap_some
    rw [read_eq_take (by omega), blocks_of_lines hrs (ht ▸ htrim), hreleases]
    exact List.take_of_length_le (by omega)
  refine ⟨hread (Text.lines_join fun line h => ⟨(hphrases h).nonempty, (hphrases h).unbroken⟩), ?_⟩
  cases rs with
  | nil => rfl
  | cons r rs =>
    exact hread (Text.lines_join_ended (fun line h => (hphrases h).unbroken) (List.cons_ne_nil _ _))

/-- Two releases, with entries that look like other lines. -/
def printedSample : List Release :=
  [⟨"1.1 beta", "v1.1 beta", some "2024-02-29",
      [⟨"[NOTES]: a", ["## 1.0", "see [a] (b)"]⟩, ⟨"FIXES", []⟩]⟩,
    ⟨"1.0", "v1.0", none, []⟩]

private theorem HasLink.infix (h : HasLink t) : ("](" : Text) <:+: t := by
  obtain ⟨before, label, target, after, rfl, -⟩ := h
  exact ⟨before ++ "[" ++ label, target ++ ")" ++ after, by simp⟩

private theorem printedSample_printable : ∀ r ∈ printedSample, r.Printable := by
  have hentry {e : Text} (he : e ∈ [("## 1.0" : Text), "see [a] (b)"]) : PlainEntry e := by
    have hplain : ∀ e ∈ [("## 1.0" : Text), "see [a] (b)"], (e ≠ [] ∧ e.trim = e ∧
        ∀ x ∈ e, x.isLineBreak = false) ∧ .scalar '\x60' ∉ e ∧ ¬ ("](" : Text) <:+: e := by
      decide +kernel
    obtain ⟨⟨hne, htrim, hunbroken⟩, hunmarked, hinfix⟩ := hplain e he
    exact ⟨⟨hne, htrim, hunbroken⟩, hunmarked, fun hlink => hinfix hlink.infix⟩
  have hnotes : Section.Printable ⟨"[NOTES]: a", ["## 1.0", "see [a] (b)"]⟩ :=
    ⟨⟨by decide, by decide +kernel, by decide⟩, by decide, fun e he => hentry he⟩
  have hfixes : Section.Printable ⟨"FIXES", []⟩ :=
    ⟨⟨by decide, by decide +kernel, by decide⟩, by decide, fun e he => nomatch he⟩
  refine List.forall_mem_cons.mpr ⟨?_, List.forall_mem_singleton.mpr ?_⟩
  · refine ⟨⟨⟨by decide, by decide +kernel, by decide⟩, by decide, by decide, by decide,
      by decide +kernel⟩, rfl, Or.inr ⟨⟨2024, 2, 29, by decide⟩, by decide +kernel⟩,
      fun s hs => ?_⟩
    rcases List.mem_cons.mp hs with rfl | hs
    · exact hnotes
    · exact List.mem_singleton.mp hs ▸ hfixes
  · exact ⟨⟨⟨by decide, by decide +kernel, by decide⟩, by decide, by decide, by decide,
      by decide +kernel⟩, rfl, Or.inl rfl, nofun⟩

theorem read_printed_of_sample :
    (∀ r ∈ printedSample, r.Printable) ∧ max 1 (printedSample.length : Int) ≤ 2 ∧
      printed printedSample =
        ("## [1.1 beta] (2024-02-29)\n### [NOTES]: a\n* ## 1.0\n" : Text) ++
          "* see [a] (b)\n### FIXES\n## [1.0]" ∧
      read 2 (printed printedSample) = printedSample ∧
      read 2 (printed printedSample ++ "\n") = printedSample := by
  have hlimit : max 1 (printedSample.length : Int) ≤ 2 := by decide
  obtain ⟨hplain, hended⟩ := read_printed 2 printedSample printedSample_printable hlimit
  exact ⟨printedSample_printable, hlimit, by decide +kernel, hplain, hended⟩

end ProviderCatalog.Changelog
