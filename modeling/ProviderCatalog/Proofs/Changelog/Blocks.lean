import ProviderCatalog.Changelog.Reader
import Mathlib.Data.List.Basic

/-!
# Changelogs as blocks

A changelog falls into blocks: each release heading begins one, which goes on up to the next release
heading, and what stands above the first of them belongs to none. A block falls into sections in the
same way. Reading a changelog line by line up to a limit gives the releases of as many of its blocks
as the limit admits, where only the blocks count whose heading names a version.

## Main definitions

* `cutAt`: a list cut before each element of a class.
* `Block`, `blocks`: the blocks of a changelog.
* `Block.sections`, `Block.release?`: what a block says.

## Main results

* `addLines_eq`: a release after the lines of its block has the sections of the block.
* `readLines_eq`, `read_eq_take`: the releases of the remaining lines, and of all lines.
* `forall_mem_readLines`, `forall_mem_read`: what headings give and lines keep.
* `read_eq_blocks`: the releases of a changelog are those of its blocks, up to the limit.
* `read_eq_of_nonpos`, `length_read_le_iff`: the releases under a limit that admits none, and the
  number of releases.
-/

namespace ProviderCatalog.Changelog

variable {α : Type}

/-! ### Cutting a list -/

/-- A list cut before each element of a class: what stands before the first such element, and each
such element with what follows it up to the next. -/
def cutAt (p : α → Bool) : List α → List α × List (α × List α)
  | [] => ([], [])
  | x :: xs =>
    let (lead, groups) := cutAt p xs
    if p x then ([], (x, lead) :: groups) else (x :: lead, groups)

section CutAt

variable {p : α → Bool} {x : α} {xs : List α}

theorem cutAt_cons_pos (hx : p x = true) :
    cutAt p (x :: xs) = ([], (x, (cutAt p xs).1) :: (cutAt p xs).2) := by
  simp only [cutAt, hx, if_true]

theorem cutAt_cons_neg (hx : p x = false) :
    cutAt p (x :: xs) = (x :: (cutAt p xs).1, (cutAt p xs).2) := by
  simp only [cutAt, hx, Bool.false_eq_true, if_false]

/-- Elements outside the class join what follows them. -/
theorem cutAt_append (hxs : ∀ x ∈ xs, p x = false) (ys : List α) :
    cutAt p (xs ++ ys) = (xs ++ (cutAt p ys).1, (cutAt p ys).2) := by
  induction xs with
  | nil => rfl
  | cons x xs ih =>
    obtain ⟨hx, hrest⟩ := List.forall_mem_cons.mp hxs
    rw [List.cons_append, cutAt_cons_neg hx, ih hrest, List.cons_append]

/-- A cut before `y` does not depend on what stands above it, and its group does not depend on what
stands below the next cut. -/
theorem cutAt_between {y : α} {zs : List α} (hy : p y = true) (hzs : ∀ z ∈ zs, p z = false)
    (before after : List α) :
    cutAt p (before ++ y :: (zs ++ after)) =
      ((cutAt p before).1, (cutAt p before).2 ++ (y, zs ++ (cutAt p after).1) ::
        (cutAt p after).2) := by
  induction before with
  | nil => rw [List.nil_append, cutAt_cons_pos hy, cutAt_append hzs]; rfl
  | cons x before ih =>
    cases hx : p x with
    | true => rw [List.cons_append, cutAt_cons_pos hx, cutAt_cons_pos hx, ih]; rfl
    | false => rw [List.cons_append, cutAt_cons_neg hx, cutAt_cons_neg hx, ih]

end CutAt

/-! ### What blocks say -/

/-- A line that begins something, with the lines that follow it. -/
abbrev Block := Text × List Text

/-- The blocks of a changelog. -/
def blocks (t : Text) : List Block := (cutAt isReleaseHeading (t.lines.map Text.trim)).2

/-- The texts of the bullets among lines, without those that are empty. -/
def entryTexts (lines : List Text) : List Text :=
  ((lines.filter isBullet).map bulletText).filter (!·.isEmpty)

/-- The sections of a block: one for each line that opens a section, after one for the bullets that
stand above all of these. -/
def Block.sections (b : Block) : List Section :=
  let (lead, groups) := cutAt opensSection b.2
  (if lead.any isBullet then [⟨otherSection, entryTexts lead⟩] else []) ++
    groups.map fun g => ⟨sectionName g.1, entryTexts g.2⟩

/-- The release of a block, if its heading names a version. -/
def Block.release? (b : Block) : Option Release :=
  (Release.ofHeading? b.1).map fun r => { r with sections := b.sections }

/-! ### The lines of a block -/

private theorem entryTexts_cons_bullet {line : Text} (h : isBullet line = true)
    (lines : List Text) : entryTexts (line :: lines) =
      (if (bulletText line).isEmpty then [] else [bulletText line]) ++ entryTexts lines := by
  rw [entryTexts, List.filter_cons_of_pos h, List.map_cons, List.filter_cons]
  by_cases hempty : (bulletText line).isEmpty <;> simp [hempty, entryTexts]

private theorem entryTexts_cons_other {line : Text} (h : isBullet line = false)
    (lines : List Text) : entryTexts (line :: lines) = entryTexts lines := by
  simp [entryTexts, h]

/-- Sections that go on with lines of which none opens a section. -/
private def continued (lines : List Text) : List Section → List Section
  | [] => if lines.any isBullet then [⟨otherSection, entryTexts lines⟩] else []
  | [s] => [{ s with entries := s.entries ++ entryTexts lines }]
  | s :: rest => s :: continued lines rest

private theorem continued_append (lines : List Text) (ss : List Section) (s : Section) :
    continued lines (ss ++ [s]) = ss ++ [{ s with entries := s.entries ++ entryTexts lines }] := by
  induction ss with
  | nil => rfl
  | cons x ss ih =>
    rw [List.cons_append, List.cons_append, ← ih]
    cases ss <;> rfl

private theorem addEntry_append (entry : Text) (ss : List Section) (s : Section) :
    addEntry entry (ss ++ [s]) = ss ++ [{ s with entries := s.entries ++ [entry] }] := by
  induction ss with
  | nil => rfl
  | cons x ss ih =>
    rw [List.cons_append, List.cons_append, ← ih]
    cases ss <;> rfl

private theorem continued_nil (ss : List Section) : continued [] ss = ss := by
  rcases ss.eq_nil_or_concat with rfl | ⟨ss, s, rfl⟩
  · rfl
  · simp [continued_append, entryTexts]

/-- A line that opens no section goes to the last section there is, or opens one if it is a
bullet. -/
private theorem continued_addLine {line : Text} (hline : opensSection line = false)
    (lines : List Text) (r : Release) :
    continued lines (r.addLine line).sections = continued (line :: lines) r.sections := by
  have hsections : r.sections = [] ∨ ∃ ss s, r.sections = ss ++ [s] := by
    simpa using r.sections.eq_nil_or_concat
  cases hbullet : isBullet line with
  | false =>
    have hsame : r.addLine line = r := by simp [Release.addLine, hline, hbullet]
    rcases hsections with hnil | ⟨ss, s, hss⟩
    · simp [hsame, hnil, continued, entryTexts_cons_other hbullet, hbullet]
    · rw [hsame, hss, continued_append, continued_append, entryTexts_cons_other hbullet]
  | true =>
    have hentries := entryTexts_cons_bullet hbullet lines
    cases hentry : (bulletText line).isEmpty with
    | false =>
      have hadded : (r.addLine line).sections = addEntry (bulletText line) r.sections := by
        simp [Release.addLine, hline, hbullet, hentry]
      rcases hsections with hnil | ⟨ss, s, hss⟩
      · simp [hadded, hnil, addEntry, continued, hentries, hentry, hbullet]
      · rw [hadded, hss, addEntry_append, continued_append, continued_append, hentries]
        simp [hentry]
    | true =>
      rcases hsections with hnil | ⟨ss, s, hss⟩
      · simp [Release.addLine, hline, hbullet, hentry, hnil, continued, hentries]
      · have hsame : r.addLine line = r := by
          simp [Release.addLine, hline, hbullet, hentry, hss]
        rw [hsame, hss, continued_append, continued_append, hentries]
        simp [hentry]

/-- A line changes nothing of a release but its sections. -/
theorem addLine_eq (r : Release) (line : Text) :
    r.addLine line = { r with sections := (r.addLine line).sections } := by
  unfold Release.addLine
  dsimp only
  split
  · rfl
  · split
    · split
      · rfl
      · split <;> rfl
    · rfl

/-- The sections of a release after more of its lines. -/
private theorem sections_addLines (lines : List Text) (r : Release) :
    lines.foldl Release.addLine r = { r with
      sections := continued (cutAt opensSection lines).1 r.sections ++
        (cutAt opensSection lines).2.map fun g => ⟨sectionName g.1, entryTexts g.2⟩ } := by
  induction lines generalizing r with
  | nil => simp [cutAt, continued_nil]
  | cons line lines ih =>
    rw [List.foldl_cons, ih]
    cases hline : opensSection line with
    | true =>
      have hopened : r.addLine line =
          { r with sections := r.sections ++ [⟨sectionName line, []⟩] } := by
        simp [Release.addLine, hline]
      rw [cutAt_cons_pos hline, hopened, continued_append, continued_nil]
      simp
    | false =>
      rw [cutAt_cons_neg hline, continued_addLine hline, addLine_eq r line]

/-- A heading opens a release without sections, and its version is a normal form that is not
empty. -/
theorem ofHeading?_eq_some {line : Text} {r : Release} (h : Release.ofHeading? line = some r) :
    r.sections = [] ∧ r.version ≠ [] ∧ r.tag = .scalar 'v' :: r.version ∧
      r.version = normalizeVersion (headingVersion (line.dropPrefix "##").trim) ∧
      r.date = headingDate (line.dropPrefix "##").trim := by
  unfold Release.ofHeading? at h
  dsimp only at h
  split at h
  · cases h
  · split at h
    · cases h
    · rename_i hversion
      cases h
      exact ⟨rfl, by simpa using hversion, rfl, rfl, rfl⟩

/-- A release that is opened by a heading and goes through the lines of its block has the sections
of the block. -/
theorem addLines_eq (b : Block) :
    (Release.ofHeading? b.1).map (b.2.foldl Release.addLine ·) = b.release? := by
  rw [Block.release?]
  cases hopened : Release.ofHeading? b.1 with
  | none => rfl
  | some r =>
    obtain ⟨hbare, -⟩ := ofHeading?_eq_some hopened
    simp only [Option.map_some, sections_addLines, hbare]
    rfl

/-! ### Reading -/

/-- What headings give and lines keep holds of all releases of the remaining lines, whatever the
limit is. -/
theorem forall_mem_readLines {P : Release → Prop} {limit : Int} {done : List Release}
    {current : Option Release} {lines : List Text} (hdone : ∀ r ∈ done, P r)
    (hcurrent : ∀ r ∈ current, P r)
    (hopened : ∀ line ∈ lines, ∀ r, Release.ofHeading? line.trim = some r → P r)
    (hadded : ∀ line ∈ lines, ∀ r, P r → P (r.addLine line.trim)) :
    ∀ r ∈ readLines limit done current lines, P r := by
  have hclosed {r : Release} (hr : P r) : ∀ x ∈ r :: done, P x :=
    List.forall_mem_cons.mpr ⟨hr, hdone⟩
  induction lines generalizing done current with
  | nil =>
    intro x hx
    rw [readLines.eq_def] at hx
    dsimp only at hx
    split at hx
    · rename_i r
      split at hx
      · exact hclosed (hcurrent r rfl) x (List.mem_reverse.mp hx)
      · exact hdone x (List.mem_reverse.mp hx)
    · exact hdone x (List.mem_reverse.mp hx)
  | cons raw lines ih =>
    obtain ⟨hopen, hopened⟩ := List.forall_mem_cons.mp hopened
    obtain ⟨hadd, hadded⟩ := List.forall_mem_cons.mp hadded
    rw [readLines.eq_def]
    dsimp only
    split
    · split
      · rename_i r
        split
        · exact fun x hx => hclosed (hcurrent r rfl) x (List.mem_reverse.mp hx)
        · have hnow := hclosed (hcurrent r rfl)
          exact ih hnow hopen hopened hadded fun hr => List.forall_mem_cons.mpr ⟨hr, hnow⟩
      · exact ih hdone hopen hopened hadded hclosed
    · refine ih hdone (fun r hr => ?_) hopened hadded hclosed
      obtain ⟨r', hr', rfl⟩ := Option.map_eq_some_iff.mp hr
      exact hadd r' (hcurrent r' hr')

theorem forall_mem_read {P : Release → Prop} {limit : Int} {t : Text}
    (hopened : ∀ line ∈ t.lines, ∀ r, Release.ofHeading? line.trim = some r → P r)
    (hadded : ∀ line ∈ t.lines, ∀ r, P r → P (r.addLine line.trim)) : ∀ r ∈ read limit t, P r :=
  fun r hr => forall_mem_readLines (List.forall_mem_nil _) nofun hopened hadded r
    (List.mem_of_mem_filter hr)

private theorem readLines_cons_line {limit : Int} {done : List Release} {current : Option Release}
    {line : Text} (hline : isReleaseHeading line.trim = false) (raw : List Text) :
    readLines limit done current (line :: raw) =
      readLines limit done (current.map (·.addLine line.trim)) raw := by
  simp [readLines, hline]

private theorem readLines_cons_heading {limit : Int} {done : List Release} {line : Text}
    (hline : isReleaseHeading line.trim = true) (raw : List Text) :
    readLines limit done none (line :: raw) =
      readLines limit done (Release.ofHeading? line.trim) raw := by
  simp [readLines, hline]

/-- The releases of the remaining lines: those that are closed already, the open one with the lines
up to the next heading, and those of the blocks after that, up to the limit. -/
theorem readLines_eq {limit : Int} {done : List Release} (hdone : (done.length : Int) < limit)
    (current : Option Release) (raw : List Text) :
    readLines limit done current raw = done.reverse ++
      ((current.map ((cutAt isReleaseHeading (raw.map Text.trim)).1.foldl
          Release.addLine ·)).toList ++
        (cutAt isReleaseHeading (raw.map Text.trim)).2.filterMap Block.release?).take
          (limit.toNat - done.length) := by
  -- while the limit is not reached, there is room for the release that is open
  obtain ⟨room, hroom⟩ : ∃ room, limit.toNat - done.length = room + 1 :=
    ⟨limit.toNat - done.length - 1, by omega⟩
  induction raw generalizing done current room with
  | nil =>
    cases current with
    | none => simp [readLines, cutAt]
    | some r => simp [readLines, cutAt, hdone, hroom]
  | cons line raw ih =>
    rw [List.map_cons]
    cases hline : isReleaseHeading line.trim with
    | false =>
      rw [cutAt_cons_neg hline, readLines_cons_line hline, ih hdone _ room hroom, Option.map_map]
      rfl
    | true =>
      have hblock := addLines_eq (line.trim, (cutAt isReleaseHeading (raw.map Text.trim)).1)
      rw [cutAt_cons_pos hline, List.filterMap_cons, ← hblock]
      cases current with
      | none =>
        rw [readLines_cons_heading hline, ih hdone _ room hroom]
        cases Release.ofHeading? line.trim <;> rfl
      | some r =>
        by_cases hlast : limit ≤ (done.length : Int) + 1
        · have hread : readLines limit done (some r) (line :: raw) = (r :: done).reverse := by
            simp [readLines, hline, hlast]
          obtain rfl : room = 0 := by omega
          simp [hread, hroom]
        · have hread : readLines limit done (some r) (line :: raw) =
              readLines limit (r :: done) (Release.ofHeading? line.trim) raw := by
            simp [readLines, hline, hlast]
          obtain ⟨room', rfl⟩ : ∃ n, room = n + 1 := ⟨room - 1, by omega⟩
          have hdone' : ((r :: done).length : Int) < limit := by
            rw [List.length_cons]
            omega
          have hroom' : limit.toNat - (r :: done).length = room' + 1 := by
            rw [List.length_cons]
            omega
          rw [hread, ih hdone' _ room' hroom', hroom, hroom']
          cases Release.ofHeading? line.trim <;> simp

/-- The releases of blocks have versions and tags, so none of them is left out at the end. -/
private theorem filter_complete (bs : List Block) (n : Nat) :
    ((bs.filterMap Block.release?).take n).filter
        (fun r => !r.version.isEmpty && !r.tag.isEmpty) =
      (bs.filterMap Block.release?).take n := by
  refine List.filter_eq_self.mpr fun r hr => ?_
  obtain ⟨b, -, hb⟩ := List.mem_filterMap.mp (List.mem_of_mem_take hr)
  obtain ⟨r', hr', rfl⟩ := Option.map_eq_some_iff.mp hb
  obtain ⟨-, hversion, htag, -⟩ := ofHeading?_eq_some hr'
  simp [hversion, htag]

/-- Reading takes as many releases from the blocks as the limit admits. -/
theorem read_eq_take {limit : Int} (hlimit : 1 ≤ limit) (t : Text) :
    read limit t = ((blocks t).filterMap Block.release?).take limit.toNat := by
  have hroom : (([] : List Release).length : Int) < limit := by
    rw [List.length_nil]
    omega
  rw [read, readLines_eq hroom none t.lines]
  exact filter_complete (blocks t) limit.toNat

/-- The releases of a changelog up to a limit are those of its first blocks whose headings name a
version. So a smaller limit leaves the later ones of them out, and the lines below a heading without
a version do not matter. -/
theorem read_eq_blocks (limit : Int) (hlimit : 1 ≤ limit) (t : Text) :
    read limit t = ((blocks t).filterMap Block.release?).take limit.toNat ∧
      (∀ larger, limit ≤ larger → read limit t = (read larger t).take limit.toNat) ∧
      ∀ (t' : Text) (before hidden hidden' after : List Text) (heading : Text),
        t.lines.map Text.trim = before ++ heading :: (hidden ++ after) →
        t'.lines.map Text.trim = before ++ heading :: (hidden' ++ after) →
        isReleaseHeading heading = true → Release.ofHeading? heading = none →
        (∀ line ∈ hidden ++ hidden', isReleaseHeading line = false) →
        read limit t' = read limit t := by
  refine ⟨read_eq_take hlimit t, fun larger hlarger => ?_, ?_⟩
  · rw [read_eq_take hlimit, read_eq_take (by omega), List.take_take, Nat.min_eq_left (by omega)]
  · intro t' before hidden hidden' after heading ht ht' hheading hnone hlines
    have hnothing (lines : List Text) : Block.release? (heading, lines) = none := by
      rw [Block.release?, hnone]
      rfl
    have hhidden : ∀ line ∈ hidden, isReleaseHeading line = false :=
      fun line h => hlines line (List.mem_append_left _ h)
    have hhidden' : ∀ line ∈ hidden', isReleaseHeading line = false :=
      fun line h => hlines line (List.mem_append_right _ h)
    rw [read_eq_take hlimit, read_eq_take hlimit, blocks, blocks, ht, ht',
      cutAt_between hheading hhidden, cutAt_between hheading hhidden']
    simp [hnothing]

/-- A changelog with a heading of unreleased changes, and some lines below it. -/
def draftedSample (lines : Text) : Text :=
  ("# Changes\n## 2.0\n* a\nFIXES:\n- b\n## Unreleased\n" : Text) ++ lines ++
    "\n## 1.0 (2024-01-31)"

/-- Of three blocks one is of unreleased changes, and the limit admits the two others or the first
of them. -/
theorem read_eq_blocks_of_drafted :
    (1 : Int) ≤ 1 ∧ read 1 (draftedSample "* c") =
        ((blocks (draftedSample "* c")).filterMap Block.release?).take 1 ∧
      (read 1 (draftedSample "* c")).length = 1 ∧ (blocks (draftedSample "* c")).length = 3 ∧
      read 1 (draftedSample "* c") = (read 2 (draftedSample "* c")).take 1 ∧
      read 1 (draftedSample "NOTES:\n- d") = read 1 (draftedSample "* c") := by
  obtain ⟨hblocks, hlarger, hhidden⟩ := read_eq_blocks 1 (by decide) (draftedSample "* c")
  refine ⟨by decide, hblocks, by decide +kernel, by decide +kernel, hlarger 2 (by decide), ?_⟩
  exact hhidden _ ["# Changes", "## 2.0", "* a", "FIXES:", "- b"] ["* c"] ["NOTES:", "- d"]
    ["## 1.0 (2024-01-31)"] "## Unreleased" (by decide +kernel) (by decide +kernel)
    (by decide +kernel) (by decide +kernel) (by decide +kernel)

/-! ### Reading without room -/

/-- Where the limit admits no release, only a heading that follows one closes it, and reading ends
there. -/
theorem readLines_eq_of_nonpos {limit : Int} (hlimit : limit ≤ 0) (current : Option Release)
    (raw : List Text) :
    readLines limit [] current raw =
      (if (cutAt isReleaseHeading (raw.map Text.trim)).2 = [] then []
        else (current.map ((cutAt isReleaseHeading (raw.map Text.trim)).1.foldl
            Release.addLine ·)).toList ++
          (cutAt isReleaseHeading (raw.map Text.trim)).2.dropLast.filterMap
            Block.release?).take 1 := by
  induction raw generalizing current with
  | nil =>
    cases current with
    | none => rfl
    | some r => simp [readLines, cutAt, Int.not_lt.mpr hlimit]
  | cons line raw ih =>
    rw [List.map_cons]
    cases hline : isReleaseHeading line.trim with
    | false =>
      rw [cutAt_cons_neg hline, readLines_cons_line hline, ih, Option.map_map]
      rfl
    | true =>
      rw [cutAt_cons_pos hline, if_neg (List.cons_ne_nil _ _)]
      cases current with
      | some r =>
        have hfull : limit ≤ 1 := by omega
        simp [readLines, hline, hfull]
      | none =>
        have hblock := addLines_eq (line.trim, (cutAt isReleaseHeading (raw.map Text.trim)).1)
        rw [readLines_cons_heading hline, ih, hblock]
        cases (cutAt isReleaseHeading (raw.map Text.trim)).2 with
        | nil => rfl
        | cons b bs =>
          rw [List.dropLast_cons_cons, List.filterMap_cons, if_neg (List.cons_ne_nil b bs)]
          cases Block.release? (line.trim, (cutAt isReleaseHeading (raw.map Text.trim)).1) <;> rfl

theorem read_eq_of_nonpos {limit : Int} (hlimit : limit ≤ 0) (t : Text) :
    read limit t = ((blocks t).dropLast.filterMap Block.release?).take 1 := by
  have hlines : readLines limit [] none t.lines =
      ((blocks t).dropLast.filterMap Block.release?).take 1 := by
    rw [readLines_eq_of_nonpos hlimit, blocks]
    cases (cutAt isReleaseHeading (t.lines.map Text.trim)).2 <;> rfl
  rw [read, hlines]
  exact filter_complete _ 1

/-- Whatever the limit is, each release is that of a block. -/
theorem exists_block_of_mem_read {limit : Int} {t : Text} {r : Release} (h : r ∈ read limit t) :
    ∃ b ∈ blocks t, b.release? = some r := by
  by_cases hlimit : 1 ≤ limit
  · rw [read_eq_take hlimit] at h
    exact List.mem_filterMap.mp (List.mem_of_mem_take h)
  · rw [read_eq_of_nonpos (by omega)] at h
    obtain ⟨b, hb, hr⟩ := List.mem_filterMap.mp (List.mem_of_mem_take h)
    exact ⟨b, List.dropLast_subset _ hb, hr⟩

/-- The number of releases stays within the limit, except that with the limit zero one release is
read where a heading follows a block that has one. -/
theorem length_read_le_iff (limit : Nat) (t : Text) :
    (read limit t).length ≤ max limit 1 ∧
      ((read limit t).length ≤ limit ↔
        1 ≤ limit ∨ ∀ b ∈ (blocks t).dropLast, b.release? = none) := by
  rcases Nat.eq_zero_or_pos limit with rfl | hpos
  · rw [read_eq_of_nonpos (Int.le_of_eq Int.natCast_zero), List.length_take]
    refine ⟨Nat.min_le_left _ _, ?_⟩
    rw [← List.filterMap_eq_nil_iff, ← List.length_eq_zero_iff]
    omega
  · have hread := read_eq_take (Int.ofNat_le.mpr hpos) t
    have hle : (read limit t).length ≤ limit := by
      rw [hread, List.length_take]
      exact Nat.min_le_left _ _
    exact ⟨Nat.le_trans hle (Nat.le_max_left _ _), iff_of_true hle (.inl hpos)⟩

/-- With the limit zero a release is read all the same if a heading follows it. -/
theorem read_exceeds_limit :
    ¬ ∀ (limit : Nat) (t : Text), (read limit t).length ≤ limit := by
  intro h
  have hone : (read ((0 : Nat) : Int) "## 1.0.0\n## 0.9.0").length = 1 := by decide +kernel
  exact absurd (h 0 "## 1.0.0\n## 0.9.0") (by rw [hone]; decide)

end ProviderCatalog.Changelog
