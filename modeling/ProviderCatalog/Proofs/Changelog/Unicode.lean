import ProviderCatalog.Changelog.Chain
import ProviderCatalog.Proofs.Changelog.Numbering
import ProviderCatalog.Proofs.Changelog.Headings
import Mathlib.Data.List.TakeDrop

/-!
# What is read from a changelog can be encoded

The versions, section names and bullets of a changelog are pieces of its lines, and dates are
written anew. So the releases of a changelog without lone surrogates have none either, and each of
their bullets makes an entry. The entries of a release are numbered in order, and their keys differ
because their numbers do.

## Main definitions

* `Release.Unicode`, `Entry.Unicode`: no text of a release or of an entry has a lone surrogate.

## Main results

* `read_unicode`: the releases of a changelog without lone surrogates.
* `entries_ok`: the entries of such a release, with their positions and keys.
-/

namespace ProviderCatalog.Changelog

open Text (isUnicode_of_subset isUnicode_append isUnicode_ofChars isUnicode_iff)

variable {t line heading : Text} {r : Release}

/-! ### Bullets and section names -/

private theorem label_subset {label rest : Text} (h : linkAfterBracket? t = some (label, rest)) :
    label ⊆ t := by
  rw [linkAfterBracket?, List.span_eq_takeWhile_dropWhile] at h
  dsimp only at h
  have hbefore : t.takeWhile (· != .scalar ']') ⊆ t := (List.takeWhile_sublist _).subset
  split at h
  · split at h
    · cases h
      exact hbefore
    · exact nomatch h
  · exact nomatch h

/-- Replacing links by their labels drops code points only. -/
private theorem unlinkFrom_subset (skip : Nat) (t : Text) : unlinkFrom skip t ⊆ t := by
  induction t generalizing skip with
  | nil => cases skip <;> exact List.Subset.refl _
  | cons x t ih =>
    have hrest (skip : Nat) : unlinkFrom skip t ⊆ x :: t :=
      List.Subset.trans (ih skip) (List.subset_cons_self x t)
    cases skip with
    | succ skip => exact hrest skip
    | zero =>
      rw [unlinkFrom]
      split
      · split
        · rename_i label rest hlink
          have hlabel : label ⊆ x :: t :=
            List.Subset.trans (label_subset hlink) (List.subset_cons_self x t)
          exact List.append_subset.mpr ⟨hlabel, hrest _⟩
        · exact List.cons_subset_cons x (ih 0)
      · exact List.cons_subset_cons x (ih 0)

theorem bulletText_subset (line : Text) : bulletText line ⊆ line := by
  have hmark : Text.trim (line.trim.drop 1) ⊆ line :=
    List.Subset.trans (Text.trim_subset _)
      (List.Subset.trans (List.drop_subset _ _) (Text.trim_subset line))
  have hlinks : unlink (Text.trim (line.trim.drop 1)) ⊆ line :=
    List.Subset.trans (unlinkFrom_subset 0 _) hmark
  exact List.Subset.trans (Text.trim_subset _) (List.Subset.trans (Text.erase_subset _ _) hlinks)

theorem sectionName_subset (line : Text) : sectionName line ⊆ line := by
  have hname : (line.dropPrefix "### ").trim ⊆ line :=
    List.Subset.trans (Text.trim_subset _) (Text.dropPrefix_subset line _)
  exact List.Subset.trans (Text.trim_subset _) (List.Subset.trans (Text.dropRight_subset _ _) hname)

/-! ### Headings -/

private theorem normalizeVersion_subset (raw : Text) : normalizeVersion raw ⊆ raw :=
  List.Subset.trans (normalizeVersion_suffix raw).subset (Text.trim_subset raw)

private theorem headingVersion_subset (heading : Text) : headingVersion heading ⊆ heading := by
  unfold headingVersion
  split
  · split
    · exact List.Subset.trans (List.take_subset _ _) (List.subset_cons_self _ _)
    · exact List.Subset.refl _
  · exact Text.firstWord_subset heading

theorem isUnicode_padded (width n : Nat) : (Date.padded width n).isUnicode = true := by
  rw [Date.padded_eq]
  exact isUnicode_ofChars _

/-- Dates are written in digits and hyphens. -/
private theorem headingDate_unicode {date : Text} (h : headingDate heading = some date) :
    date.isUnicode = true := by
  obtain ⟨d, hd⟩ := exists_date_of_headingDate h
  rw [hd]
  simp only [Date.toText, isUnicode_append, isUnicode_padded, true_and, and_true]
  decide

/-! ### Releases -/

/-- No text of a release has a lone surrogate. -/
structure Release.Unicode (r : Release) : Prop where
  version : r.version.isUnicode = true
  tag : r.tag.isUnicode = true
  date : ∀ d ∈ r.date, d.isUnicode = true
  sections : ∀ s ∈ r.sections, s.name.isUnicode = true ∧ ∀ e ∈ s.entries, e.isUnicode = true

theorem Release.ofHeading?_unicode (hline : line.isUnicode = true)
    (h : Release.ofHeading? line = some r) : r.Unicode := by
  obtain ⟨hsections, -, htag, hversion, hdate⟩ := ofHeading?_eq_some h
  have hheading : (line.dropPrefix "##").trim ⊆ line :=
    List.Subset.trans (Text.trim_subset _) (Text.dropPrefix_subset line _)
  have hunicode : r.version.isUnicode = true := by
    rw [hversion]
    exact isUnicode_of_subset (List.Subset.trans (normalizeVersion_subset _)
      (List.Subset.trans (headingVersion_subset _) hheading)) hline
  refine ⟨hunicode, ?_, fun d hd => headingDate_unicode (hdate ▸ hd), ?_⟩
  · rw [htag]
    exact hunicode
  · rw [hsections]
    exact List.forall_mem_nil _

private theorem addEntry_unicode {entry : Text} {sections : List Section}
    (hentry : entry.isUnicode = true)
    (h : ∀ s ∈ sections, s.name.isUnicode = true ∧ ∀ e ∈ s.entries, e.isUnicode = true) :
    ∀ s ∈ addEntry entry sections,
      s.name.isUnicode = true ∧ ∀ e ∈ s.entries, e.isUnicode = true := by
  fun_induction addEntry entry sections with
  | case1 =>
    intro s hs
    rw [List.mem_singleton.mp hs]
    have hother : otherSection.isUnicode = true := by decide
    exact ⟨hother, fun e he => List.mem_singleton.mp he ▸ hentry⟩
  | case2 s =>
    intro s' hs'
    obtain ⟨hname, hentries⟩ := h s List.mem_cons_self
    rw [List.mem_singleton.mp hs']
    refine ⟨hname, fun e he => ?_⟩
    rcases List.mem_append.mp he with he | he
    · exact hentries e he
    · exact List.mem_singleton.mp he ▸ hentry
  | case3 s rest hrest ih =>
    obtain ⟨hs, hothers⟩ := List.forall_mem_cons.mp h
    exact List.forall_mem_cons.mpr ⟨hs, ih hothers⟩

theorem Release.Unicode.addLine (h : r.Unicode) (hline : line.isUnicode = true) :
    (r.addLine line).Unicode := by
  have hother : ∀ s ∈ [(⟨otherSection, []⟩ : Section)],
      s.name.isUnicode = true ∧ ∀ e ∈ s.entries, e.isUnicode = true := by
    intro s hs
    rw [List.mem_singleton.mp hs]
    exact ⟨by decide, List.forall_mem_nil _⟩
  rw [Release.addLine]
  split
  · refine { h with sections := fun s hs => ?_ }
    rcases List.mem_append.mp hs with hs | hs
    · exact h.sections s hs
    · rw [List.mem_singleton.mp hs]
      exact ⟨isUnicode_of_subset (sectionName_subset line) hline, List.forall_mem_nil _⟩
  · split
    · have hentry := isUnicode_of_subset (bulletText_subset line) hline
      dsimp only
      split
      · exact { h with sections := addEntry_unicode hentry h.sections }
      · split
        · exact { h with sections := hother }
        · exact h
    · exact h

/-- The releases of a changelog without lone surrogates have none either. -/
theorem read_unicode {limit : Int} (h : t.isUnicode = true) : ∀ r ∈ read limit t, r.Unicode := by
  have hlines : ∀ line ∈ t.lines, line.trim.isUnicode = true := fun line hl =>
    isUnicode_of_subset (List.Subset.trans (Text.trim_subset line) (Text.subset_of_mem_lines hl)) h
  exact forall_mem_read (fun line hl r hr => Release.ofHeading?_unicode (hlines line hl) hr)
    fun line hl r hr => hr.addLine (hlines line hl)

/-! ### Entries -/

/-- No text of an entry has a lone surrogate. -/
structure Entry.Unicode (e : Entry) : Prop where
  sectionName : e.sectionName.isUnicode = true
  key : e.key.isUnicode = true
  title : e.title.isUnicode = true
  details : ∀ t ∈ e.details, t.isUnicode = true
  resourceName : ∀ t ∈ e.resourceName, t.isUnicode = true
  identifier : ∀ t ∈ e.identifier, t.isUnicode = true
  kind : ∀ t ∈ e.kind, t.isUnicode = true

private theorem identifier?_subset {stem x : Text} (h : identifier? stem t = some x) : x ⊆ t := by
  induction t with
  | nil => exact nomatch h
  | cons p t ih =>
    unfold identifier? at h
    dsimp only at h
    split at h
    · rename_i hhere
      cases h
      obtain ⟨hstarts, -⟩ := Bool.and_eq_true_iff.mp hhere
      have hstem : stem ⊆ p :: t := (List.isPrefixOf_iff_prefix.mp hstarts).subset
      have htail : ((p :: t).drop stem.length).takeWhile isIdentifierPoint ⊆ p :: t :=
        List.Subset.trans (List.takeWhile_sublist _).subset (List.drop_subset _ _)
      exact List.append_subset.mpr ⟨hstem, htail⟩
    · exact List.Subset.trans (ih h) (List.subset_cons_self p t)

private theorem changeKind_unicode {name title kind : Text}
    (h : changeKind name title = some kind) :
    kind.isUnicode = true := by
  have hkinds : ∀ k ∈ sectionKinds, k.2.isUnicode = true := by decide
  unfold changeKind at h
  dsimp only at h
  split at h
  · split at h
    · cases h
      decide
    · split at h
      · cases h
        decide
      · cases h
        decide
  · obtain ⟨before, after, hsplit, -⟩ := List.lookup_eq_some_iff.mp h
    exact hkinds (name.trim.lower, kind) (by simp [hsplit])

/-- The entry of a bullet without lone surrogates has none either. -/
private theorem numberedEntry_unicode (stem version : Text) {b : (Text × Text) × Nat}
    (hname : b.1.1.isUnicode = true) (htitle : b.1.2.isUnicode = true) :
    (numberedEntry stem version b).Unicode := by
  have hidentifier : ∀ x ∈ identifier? stem b.1.2.lower, x.isUnicode = true :=
    fun x hx => isUnicode_of_subset (identifier?_subset hx) (Text.isUnicode_lower htitle)
  have hkey : (entryKey b.1.1 version b.2).isUnicode = true :=
    isUnicode_iff.mpr fun x hx => (isKeyPoint_of_mem_entryKey hx).isScalar
  exact ⟨hname, hkey, htitle, nofun, hidentifier, hidentifier, fun _ hk => changeKind_unicode hk⟩

private theorem bullets_unicode (h : r.Unicode) :
    ∀ b ∈ bullets r, b.1.isUnicode = true ∧ b.2.isUnicode = true := by
  intro b hb
  obtain ⟨s, hs, hb⟩ := List.mem_flatMap.mp hb
  obtain ⟨x, hx, hb⟩ := List.mem_filterMap.mp hb
  obtain ⟨e, he, rfl⟩ := List.mem_map.mp hx
  obtain ⟨hname, hentries⟩ := h.sections s hs
  split at hb
  · exact nomatch hb
  · cases hb
    refine ⟨?_, isUnicode_of_subset (Text.trim_subset e) (hentries e he)⟩
    dsimp only
    split
    · decide
    · exact hname

theorem entries_eq_numbered (resourcePrefix : Text) (h : r.Unicode) :
    entries resourcePrefix r = .ok (numberedEntries resourcePrefix r) :=
  entries_eq_ok_iff.mpr ⟨fun b hb => (bullets_unicode h b hb).2, rfl⟩

theorem numberedEntries_unicode (resourcePrefix : Text) (h : r.Unicode) :
    ∀ e ∈ numberedEntries resourcePrefix r, e.Unicode := by
  intro e he
  obtain ⟨⟨b, n⟩, hb, rfl⟩ := List.mem_map.mp he
  obtain ⟨hname, htitle⟩ := bullets_unicode h b (List.fst_mem_of_mem_zipIdx hb)
  exact numberedEntry_unicode _ _ hname htitle

/-- The bullets of a release make entries, which are numbered in order and have different keys. -/
theorem entries_ok (resourcePrefix : Text) (h : r.Unicode) :
    ∃ es, entries resourcePrefix r = .ok es ∧
      (∀ e ∈ es, e.Unicode ∧ 0 ≤ e.position ∧ e.position < (bullets r).length) ∧
      es.Pairwise (·.key ≠ ·.key) := by
  refine ⟨_, entries_eq_numbered resourcePrefix h, fun e he => ?_,
    numberedEntries_keys resourcePrefix r⟩
  obtain ⟨n, hn, hlt, -⟩ := key_of_mem_numberedEntries he
  exact ⟨numberedEntries_unicode resourcePrefix h e he, by omega, by omega⟩

end ProviderCatalog.Changelog
