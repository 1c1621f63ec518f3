import ProviderCatalog.Proofs.Changelog.Tagging
import ProviderCatalog.Proofs.Store.Rows
import ProviderCatalog.Sync.Releases
import Mathlib.Data.List.Chain
import Mathlib.Data.List.Forall2
import Mathlib.Data.List.Induction

/-!
# The chain of releases

The releases of a changelog are recorded one by one, each with the commit of its tag and with the
release that comes after it in the changelog. A commit is looked up twice, once for the record of
its release and once as that of a predecessor, so both have to agree along the chain. Of several
tags with one normal form the one that is listed last counts, even if its commit is empty and that
of another one is not.

## Main definitions

* `Records`: a record says what there is to know about a release.
* `Linked`, `Unlinked`: a record names the one after it as its predecessor, or none.

## Main results

* `lookup_tagCommits`: the commit that is found under a normal form.
* `chain_read`: the records of the releases of a changelog.
-/

namespace ProviderCatalog.Sync

open Changelog (Release ReleaseRecord bareName chain comparisonUrl normalizeTag read recordOf)
open Remote (Tag)

variable {tags : List Tag} {r : Release} {rs : List Release} {t : Tag} {key sha : Text}

/-! ### The commits of tags -/

/-- A tag that is listed later is looked up first. -/
theorem tagCommits_concat (tags : List Tag) (hname : normalizeTag t.name ≠ []) :
    tagCommits (tags ++ [t]) = (normalizeTag t.name, t.commit.sha) :: tagCommits tags := by
  obtain ⟨x, rest, hkey⟩ := List.exists_cons_of_ne_nil hname
  simp [tagCommits, hkey]

theorem tagCommits_concat_of_blank (tags : List Tag) (hname : normalizeTag t.name = []) :
    tagCommits (tags ++ [t]) = tagCommits tags := by
  simp [tagCommits, hname]

/-- Under a normal form that is not empty there is the commit of the last tag with it. -/
theorem lookup_tagCommits (hkey : key ≠ []) :
    (tagCommits tags).lookup key = some sha ↔
      ∃ t, IsLast (fun t : Tag => normalizeTag t.name) t tags ∧ normalizeTag t.name = key ∧
        t.commit.sha = sha := by
  -- the lookup meets the tags from the last one on
  induction tags using List.reverseRecOn with
  | nil => simp [tagCommits, not_isLast_nil]
  | append_singleton tags t ih =>
    simp only [isLast_concat]
    by_cases hname : normalizeTag t.name = key
    · rw [tagCommits_concat tags (hname ▸ hkey), hname, List.lookup_cons_self]
      constructor
      · exact fun hsha => ⟨t, .inl rfl, hname, Option.some.inj hsha⟩
      · rintro ⟨t', rfl | ⟨-, hother⟩, hname', rfl⟩
        · rfl
        · exact absurd hname'.symm hother
    · have hskip : (tagCommits (tags ++ [t])).lookup key = (tagCommits tags).lookup key := by
        by_cases hblank : normalizeTag t.name = []
        · rw [tagCommits_concat_of_blank tags hblank]
        · rw [tagCommits_concat tags hblank, List.lookup_cons,
            beq_eq_false_iff_ne.mpr (Ne.symm hname)]
      rw [hskip, ih]
      constructor
      · rintro ⟨t', hlast, hname', hsha⟩
        exact ⟨t', .inr ⟨hlast, hname' ▸ hname⟩, hname', hsha⟩
      · rintro ⟨t', rfl | ⟨hlast, -⟩, hname', hsha⟩
        · exact absurd hname' hname
        · exact ⟨t', hlast, hname', hsha⟩

/-! ### Records -/

/-- A record has the version, the tag and the date of a release, and as its commit that of the last
listed tag with the normal form of the release's tag, unless this is empty. -/
structure Records (tags : List Tag) (r : Release) (x : ReleaseRecord) : Prop where
  version : x.version = r.version
  tag : x.tag = r.tag
  date : x.date = r.date
  commit : ∀ sha, x.commit = some sha ↔ sha ≠ [] ∧
    ∃ t, IsLast (fun t : Tag => normalizeTag t.name) t tags ∧
      normalizeTag t.name = normalizeTag r.tag ∧ t.commit.sha = sha

/-- A record names another one as its predecessor. -/
structure Linked (fullName : Text) (x y : ReleaseRecord) : Prop where
  previousVersion : x.previousVersion = some y.version
  previousTag : x.previousTag = some y.tag
  previousCommit : x.previousCommit = y.commit
  comparisonUrl : x.comparisonUrl = some (comparisonUrl fullName y.tag x.tag)

/-- A record names no predecessor. -/
structure Unlinked (x : ReleaseRecord) : Prop where
  previousVersion : x.previousVersion = none
  previousTag : x.previousTag = none
  previousCommit : x.previousCommit = none
  comparisonUrl : x.comparisonUrl = none

theorem records_recordOf (fullName : Text) (tags : List Tag) (hr : r.Tagged)
    (previous : Option Release) :
    Records tags r (recordOf fullName (tagCommits tags) r previous) where
  version := rfl
  tag := rfl
  date := rfl
  commit sha := by
    change ((tagCommits tags).lookup (normalizeTag r.tag)).filter _ = some sha ↔ _
    rw [Option.filter_eq_some_iff, lookup_tagCommits (Changelog.normalizeTag_ne_nil hr.trim_ne_nil),
      and_comm]
    simp

/-! ### Chains -/

theorem forall₂_records (fullName : Text) (tags : List Tag) (hrs : ∀ r ∈ rs, r.Tagged) :
    List.Forall₂ (Records tags) rs (chain fullName (tagCommits tags) rs) := by
  induction rs with
  | nil => exact .nil
  | cons r rs ih =>
    obtain ⟨hr, hrest⟩ := List.forall_mem_cons.mp hrs
    exact .cons (records_recordOf fullName tags hr _) (ih hrest)

/-- The commit of a predecessor is looked up as it is for its own record. -/
theorem isChain_linked (fullName : Text) (commits : Changelog.TagCommits) (rs : List Release) :
    (chain fullName commits rs).IsChain (Linked fullName) := by
  induction rs with
  | nil => exact .nil
  | cons r rs ih =>
    cases rs with
    | nil => exact .singleton _
    | cons r' rs => exact .cons_cons ⟨rfl, rfl, rfl, rfl⟩ ih

theorem unlinked_getLast (fullName : Text) (commits : Changelog.TagCommits) (rs : List Release) :
    ∀ x ∈ (chain fullName commits rs).getLast?, Unlinked x := by
  induction rs with
  | nil => exact nofun
  | cons r rs ih =>
    cases rs with
    | nil =>
      intro x hx
      cases Option.some.inj hx
      exact ⟨rfl, rfl, rfl, rfl⟩
    | cons r' rs =>
      intro x hx
      rw [chain, chain, List.getLast?_cons_cons] at hx
      exact ih x hx

/-- The releases of a changelog are recorded in order, each with the commit of the last listed tag
that has its version as its name up to case, outer blanks and a missing `v`. Each record is linked
to the next one with its version, tag and commit, and the last one is linked to none. -/
theorem chain_read (limit : Int) (text fullName : Text) (tags : List Tag) :
    let releases := read limit text
    let records := chain fullName (tagCommits tags) releases
    List.Forall₂ (Records tags) releases records ∧
      (∀ r ∈ releases, ∀ name, normalizeTag name = normalizeTag r.tag ↔
        Text.lower (.scalar 'v' :: bareName name) = Text.lower (.scalar 'v' :: r.version)) ∧
      records.IsChain (Linked fullName) ∧ ∀ x ∈ records.getLast?, Unlinked x := by
  have htagged : ∀ r ∈ read limit text, r.Tagged := Changelog.read_tagged
  refine ⟨forall₂_records fullName tags htagged, fun r hr name => ?_, isChain_linked _ _ _,
    unlinked_getLast _ _ _⟩
  exact (htagged r hr).normalizeTag_eq_iff name

/-- Of two tags with one normal form the later one counts, and an empty commit is none. -/
example : (chain "o/r" (tagCommits [⟨" V1.0 ", ⟨"a", []⟩⟩, ⟨"1.0", ⟨"b", []⟩⟩, ⟨"v2.0", ⟨[], []⟩⟩])
      (read 40 "## 2.0\n## [v1.0] (2024-01-31)")).map (fun x => (x.commit, x.previousCommit)) =
    [(none, some ("b" : Text)), (some ("b" : Text), none)] := by
  decide +kernel

end ProviderCatalog.Sync
