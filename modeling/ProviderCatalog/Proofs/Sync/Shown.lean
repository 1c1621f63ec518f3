import ProviderCatalog.Proofs.Store.Rows
import ProviderCatalog.Proofs.Sync.Capturing

/-!
# The releases that a capture leaves to be read

Releases are stored under their versions. So a capture into a repository without releases leaves one
release to be read for each version of the changelog, the last one with that version, and its
entries are those of its bullets, in their order. The releases of a changelog can have one version
although their headings differ, by a leading letter for instance.

## Main results

* `Tables.Valid.releasesOf_eq_ok`: releases that are read.
* `captureReleases_shows`: what can be read after a capture.
-/

namespace ProviderCatalog

open Changelog (Entry Release ReleaseRecord TagCommits)
open Store (Param Row Table Tables)

/-! ### What is read -/

namespace Store.Tables

variable {t : Tables} {id : Int}

/-- The releases that are read of a repository are its rows, of which the versions differ. -/
theorem Valid.releasesOf_eq_ok (h : t.Valid) (hid : (Param.number id).fault? = none) :
    ∃ shown, t.releasesOf id = .ok shown ∧ (shown.map (·.version)).Nodup ∧
      ∀ x, x ∈ shown ↔ ∃ n record, (⟨n, ⟨id, record⟩⟩ : Row (Part ReleaseRecord)) ∈
        t.releases.rows ∧ x = { record with id := some n } := by
  refine ⟨_, by rw [releasesOf, Param.bind_of_fits hid]; rfl, ?_, fun x => ?_⟩
  · rw [List.map_map, List.Nodup, List.pairwise_map]
    refine (h.releases.keyed.filter _).imp_of_mem fun hr hr' hne hsame => ?_
    have howned := (List.mem_filter.mp hr).2
    have howned' := (List.mem_filter.mp hr').2
    exact hne (Prod.ext ((beq_iff_eq.mp howned).trans (beq_iff_eq.mp howned').symm) hsame)
  · rw [List.mem_map]
    constructor
    · rintro ⟨⟨n, owner, record⟩, hr, rfl⟩
      obtain ⟨hmem, howned⟩ := List.mem_filter.mp hr
      obtain rfl : owner = id := beq_iff_eq.mp howned
      exact ⟨n, record, hmem, rfl⟩
    · rintro ⟨n, record, hmem, rfl⟩
      exact ⟨_, List.mem_filter.mpr ⟨hmem, beq_self_eq_true id⟩, rfl⟩

/-- A repository of which no release is read has none. -/
theorem Valid.not_hasRelease (h : t.Valid) (hid : (Param.number id).fault? = none)
    (hnothing : t.releasesOf id = .ok []) (record : ReleaseRecord) (es : List Entry) :
    ¬t.HasRelease id record es := by
  rintro ⟨n, hn, -⟩
  obtain ⟨shown, hshown, -, hrows⟩ := h.releasesOf_eq_ok hid
  obtain rfl : shown = [] := Except.ok.inj (hshown.symm.trans hnothing)
  exact nomatch (hrows _).mpr ⟨n, record, hn, rfl⟩

/-- The number of a stored release fits if the last number does. -/
theorem Valid.release_number_fits (h : t.Valid) (hlast : t.releases.last < 2 ^ 63)
    {row : Row (Part ReleaseRecord)} (hrow : row ∈ t.releases.rows) :
    (Param.number row.id).fault? = none := by
  have hpositive := h.releases.positive _ hrow
  have hbounded := h.releases.bounded _ hrow
  rw [Param.fits_iff]
  omega

end Store.Tables

namespace Sync

variable {σ : State} {t : Tables} {id : Int} {commits : TagCommits} {p : Plan}
  {s : Remote.Summary} {changelog : RepositoryFile}

/-- Each version that a list of releases has is the version of a last release. -/
private theorem exists_last {rs : List Release} {v : Text} (h : v ∈ rs.map (·.version)) :
    ∃ before r after, rs = before ++ r :: after ∧ r.version = v ∧
      ∀ q ∈ after, q.version ≠ r.version := by
  obtain ⟨q, hq, rfl⟩ := List.mem_map.mp h
  obtain ⟨r, ⟨before, after, hsplit, hafter⟩, hversion⟩ := exists_isLast (·.version) hq
  exact ⟨before, r, after, hsplit, hversion, hafter⟩

/-- After a listing that makes commits known which can be encoded, a capture into a repository
without releases leaves one release to be read for each version of the changelog: the last one of
the version, with its tag, its date and the entries of its bullets. If no version is repeated, their
number is the one that the capture tells. -/
theorem captureReleases_shows (h : Capturable p s id changelog t σ)
    (hreleases : Changelog.read p.releaseLimit changelog.content ≠ [])
    (hfresh : σ.store.releases id = .ok [])
    (hentries : σ.store.outOfOrder.contains .entries = false) (remote : Remote)
    (resourcePrefix : Text)
    (hknown : knownCommits?
      ((p.client.tags remote s.fullName p.tagPages).run.run σ.session).1 = some commits)
    (hcommits : ∀ r ∈ Changelog.read p.releaseLimit changelog.content,
      ∀ c ∈ commits.commit? r.tag, c.isUnicode = true) :
    let releases := Changelog.read p.releaseLimit changelog.content
    let capture := (captureReleases p remote id s resourcePrefix).run.run σ
    ∃ n shown, capture.1 = .ok n ∧ capture.2.store.releases id = .ok shown ∧
      ((releases.map (·.version)).Nodup → n = shown.length) ∧
      (shown.map (·.version)).Nodup ∧
      (∀ v, v ∈ shown.map (·.version) ↔ v ∈ releases.map (·.version)) ∧
      ∀ before r after, releases = before ++ r :: after → (∀ q ∈ after, q.version ≠ r.version) →
        ∃ x ∈ shown, x.version = r.version ∧ x.tag = r.tag ∧ x.date = r.date ∧
          ∃ m es, x.id = some m ∧ Changelog.entries resourcePrefix r = .ok es ∧
            capture.2.store.entries m = .ok es := by
  intro releases capture
  obtain ⟨-, hid⟩ := h.owner
  obtain ⟨τ, t', hstore, hrun, hvalid, hlast, hstored, hkeeps⟩ :=
    h.run_stores hreleases remote resourcePrefix hknown hcommits
  obtain ⟨shown, hshown, hversions, hrows⟩ := hvalid.releasesOf_eq_ok hid
  obtain ⟨hreads, u, hu, hnothing⟩ := Store.read_ok.mp hfresh
  obtain rfl : t = u := Option.some.inj (h.tables.symm.trans hu)
  have hcapture : capture.2 = τ.withTables t' := congrArg Prod.snd hrun
  have horder : (τ.withTables t').store.outOfOrder = σ.store.outOfOrder :=
    congrArg (·.outOfOrder) hstore
  have hsame : ∀ v, v ∈ shown.map (·.version) ↔ v ∈ releases.map (·.version) := by
    intro v
    constructor
    · intro hv
      obtain ⟨x, hx, rfl⟩ := List.mem_map.mp hv
      obtain ⟨n, record, hn, rfl⟩ := (hrows x).mp hx
      by_contra hother
      have hversion : ∀ q ∈ releases, record.version ≠ q.version :=
        fun q hq hq' => hother (List.mem_map.mpr ⟨q, hq, hq'.symm⟩)
      -- what is stored under a version that the changelog does not have was stored before
      have hbefore := (hkeeps record _ hversion).mp ⟨n, hn, rfl⟩
      exact h.valid.not_hasRelease hid hnothing record _ hbefore
    · intro hv
      obtain ⟨before, r, after, hsplit, rfl, hlater⟩ := exists_last hv
      obtain ⟨es, -, m, hm, -⟩ := hstored before r after hsplit hlater
      exact List.mem_map.mpr ⟨_, (hrows _).mpr ⟨m, _, hm, rfl⟩, rfl⟩
  refine ⟨releases.length, shown, congrArg Prod.fst hrun, ?_, fun hdistinct => ?_, hversions, hsame,
    fun before r after hsplit hlater => ?_⟩
  · rw [hcapture]
    exact (Store.read_inOrder (horder ▸ hreads) rfl).trans hshown
  · have hperm := (List.perm_ext_iff_of_nodup hversions hdistinct).mpr hsame
    simpa using hperm.length_eq.symm
  · obtain ⟨es, hes, m, hm, hentriesOf⟩ := hstored before r after hsplit hlater
    refine ⟨_, (hrows _).mpr ⟨m, _, hm, rfl⟩, rfl, rfl, rfl, m, es, rfl, hes, ?_⟩
    have hroom : t'.releases.last < 2 ^ 63 := hlast ▸ h.releases
    have hread := Store.Tables.entriesOf_sorted (hvalid.release_number_fits hroom hm)
      (hentriesOf.symm ▸ Changelog.entries_sorted hes)
    rw [hcapture, ← hentriesOf]
    exact (Store.read_inOrder (horder ▸ hentries) rfl).trans hread

/-! ### A changelog that repeats a version -/

/-- A changelog that has a version twice, once with a leading letter, and another version. -/
def repeatedChangelog : RepositoryFile :=
  ⟨1, "CHANGELOG.md", "CHANGELOG.md", "md", "## 1.0.0\n* a\n## v1.0.0\n* b\n## 0.9.0\n* c\n", 43⟩

/-- The calls that store a repository with the changelog. -/
def repeatedCalls : List Store.Call :=
  [⟨[], .insertRepository ⟨none, "x", "a/x", none, [], none, none⟩⟩,
    ⟨[], .insertFile repeatedChangelog⟩]

/-- A plan that keeps three releases. -/
def repeatedPlan : Plan := { changelogPlan with releaseLimit := 3 }

/-- The state with the stored changelog, in which requests are admitted. -/
def repeatedState : State :=
  { changelogState with store := Store.ready.after repeatedCalls }

/-- The capture of the releases from a remote side that refuses to list tags. -/
def repeatedCapture : Except Failure Nat × State :=
  (captureReleases repeatedPlan (fun _ _ => .response ⟨500, none, []⟩) 1 changelogSummary
    []).run.run repeatedState

private theorem repeated_capturable :
    Capturable repeatedPlan changelogSummary 1 repeatedChangelog
      (Store.ready.after repeatedCalls).contents repeatedState where
  reached := ⟨repeatedCalls, rfl⟩
  tables := (Store.ready_after repeatedCalls).1
  inOrder := ⟨rfl, rfl⟩
  numbered := by
    refine ⟨⟨1, ⟨none, "x", "a/x", none, [], none, none⟩⟩, ?_, rfl⟩
    decide +kernel
  stored := by decide +kernel
  fullName := by decide +kernel
  repositories := by decide +kernel
  releases := by decide +kernel
  bullets := by decide +kernel

private theorem repeated_known : knownCommits? ((repeatedPlan.client.tags
    (fun _ _ => .response ⟨500, none, []⟩) changelogSummary.fullName
      repeatedPlan.tagPages).run.run repeatedState.session).1 = some [] := by
  decide +kernel

/-- Of the two releases of one version the last one is left to be read, beside the other version. -/
theorem captureReleases_shows_of_repeated :
    ∃ n shown, repeatedCapture.1 = .ok n ∧ repeatedCapture.2.store.releases 1 = .ok shown ∧
      (shown.map (·.version)).Nodup ∧
      (∀ v, v ∈ shown.map (·.version) ↔ v ∈ [("1.0.0" : Text), "1.0.0", "0.9.0"]) ∧
      ∃ r, r ∈ Changelog.read repeatedPlan.releaseLimit repeatedChangelog.content ∧
        r.sections = [⟨"Other", ["b"]⟩] ∧
        ∃ x ∈ shown, x.version = "1.0.0" ∧
          ∃ m es, x.id = some m ∧ Changelog.entries [] r = .ok es ∧
            repeatedCapture.2.store.entries m = .ok es := by
  have hreleases : Changelog.read repeatedPlan.releaseLimit repeatedChangelog.content =
      [⟨"1.0.0", "v1.0.0", none, [⟨"Other", ["a"]⟩]⟩, ⟨"1.0.0", "v1.0.0", none, [⟨"Other", ["b"]⟩]⟩,
        ⟨"0.9.0", "v0.9.0", none, [⟨"Other", ["c"]⟩]⟩] := by
    decide +kernel
  obtain ⟨n, shown, hn, hshown, -, hversions, hsame, hlast⟩ :=
    captureReleases_shows repeated_capturable (by simp [hreleases]) (by decide +kernel) rfl
      (fun _ _ => .response ⟨500, none, []⟩) [] repeated_known (by simp [TagCommits.commit?])
  rw [hreleases] at hsame hlast
  obtain ⟨x, hx, hversion, -, -, hstored⟩ := hlast [_] _ [_] rfl (by decide +kernel)
  exact ⟨n, shown, hn, hshown, hversions, hsame, _, by simp [hreleases], rfl, x, hx, hversion,
    hstored⟩

/-- A repeated version is stored once, so the number that a capture tells can be larger than the
number of releases that can be read. -/
theorem captureReleases_merges_versions :
    ¬∀ (p : Plan) (s : Remote.Summary) (id : Int) (changelog : RepositoryFile) (t : Tables)
      (σ : State), Capturable p s id changelog t σ → σ.store.releases id = .ok [] →
        σ.store.outOfOrder = [] →
          ∀ (remote : Remote) (resourcePrefix : Text),
            knownCommits? ((p.client.tags remote s.fullName p.tagPages).run.run σ.session).1 =
                some [] →
              let capture := (captureReleases p remote id s resourcePrefix).run.run σ
              ∃ n shown, capture.1 = .ok n ∧ capture.2.store.releases id = .ok shown ∧
                n = shown.length ∧
                ∀ r ∈ Changelog.read p.releaseLimit changelog.content,
                  ∃ x ∈ shown, x.version = r.version ∧ x.tag = r.tag ∧ x.date = r.date ∧
                    ∃ m es, x.id = some m ∧ Changelog.entries resourcePrefix r = .ok es ∧
                      capture.2.store.entries m = .ok es := by
  intro h
  obtain ⟨n, shown, hn, hshown, hcount, -⟩ := h _ _ _ _ _ _ repeated_capturable
    (by decide +kernel) rfl (fun _ _ => .response ⟨500, none, []⟩) [] repeated_known
  have htold : repeatedCapture.1.toOption = some 3 := by decide +kernel
  have hread : (repeatedCapture.2.store.releases 1).toOption.map List.length = some 2 := by
    decide +kernel
  have hn' : n = 3 := by simpa [repeatedCapture, hn, Except.toOption] using htold
  have hshown' : shown.length = 2 := by
    simpa [repeatedCapture, hshown, Except.toOption] using hread
  omega

end Sync

end ProviderCatalog
