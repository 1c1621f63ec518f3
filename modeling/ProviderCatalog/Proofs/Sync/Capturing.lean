import ProviderCatalog.Proofs.Store.Emptying
import ProviderCatalog.Proofs.Store.Replacing
import ProviderCatalog.Proofs.Sync.Actions
import Mathlib.Algebra.Group.Nat.Defs

/-!
# Capturing the releases of a repository

The releases of a stored changelog are stored with the commits of the tags that the remote side
lists. An answer without tags leaves the commits out. Any other failure of the listing, of the
transport or in what an answer says, fails the capture before it stores anything, and so does a
commit that cannot be encoded as soon as it is to be stored.

## Main definitions

* `Tables.HasRelease`: a release is stored with its entries.
* `knownCommits?`: the commits that a listing makes known, if the capture goes on after it.
* `Capturable`: a repository whose releases can be captured.

## Main results

* `storeReleases_stores`, `storeReleases_fails`: releases that fit, and one that does not.
* `captureReleases_captures`: what a capture stores, for every outcome of the listing.
-/

namespace ProviderCatalog

open Changelog (Entry Release ReleaseRecord TagCommits)
open Store (Operation Param Tables)

/-! ### Releases that fit -/

namespace Store

variable {t : Tables} {id : Int} {r : Release}

/-- A release of a repository is stored with its entries. -/
def Tables.HasRelease (t : Tables) (repository : Int) (record : ReleaseRecord) (es : List Entry) :
    Prop :=
  ∃ n, (⟨n, ⟨repository, record⟩⟩ : Row (Part ReleaseRecord)) ∈ t.releases.rows ∧
    t.EntriesOf n = es

/-- The record of a release fits if the commits of its tag and of the tag before it do. -/
theorem Param.release_fits_iff (hid : (Param.number id).fault? = none) {fullName : Text}
    (hname : fullName.isUnicode = true) (commits : TagCommits) (hr : r.Unicode)
    (previous : Option Release) (hprevious : ∀ q ∈ previous, q.Unicode) :
    Param.bind (Param.ofRelease ⟨id, Changelog.recordOf fullName commits r previous⟩) = .ok () ↔
      (∀ c ∈ commits.commit? r.tag, c.isUnicode = true) ∧
        ∀ q ∈ previous, ∀ c ∈ commits.commit? q.tag, c.isUnicode = true := by
  have hurl : ∀ u ∈ previous.map fun q => Changelog.comparisonUrl fullName q.tag r.tag,
      u.isUnicode = true := by
    intro u hu
    obtain ⟨q, hq, rfl⟩ := Option.map_eq_some_iff.mp hu
    have htag := (hprevious q hq).tag
    simp only [Changelog.comparisonUrl, Text.isUnicode_append, hname, hr.tag, htag,
      and_true]
    decide
  simp only [Param.bind_eq_ok_iff, Param.ofRelease, Changelog.recordOf, List.forall_mem_cons,
    Param.text_fits_iff, Param.ofText?_fits_iff]
  constructor
  · rintro ⟨-, -, -, -, -, hcommit, hbefore, -⟩
    exact ⟨hcommit, fun q hq c hc => hbefore c (Option.bind_eq_some_iff.mpr ⟨q, hq, hc⟩)⟩
  · rintro ⟨hcommit, hbefore⟩
    refine ⟨hid, hr.version, hr.tag, ?_, ?_, hcommit, ?_, hr.date, hurl, List.forall_mem_nil _⟩
    · intro v hv
      obtain ⟨q, hq, rfl⟩ := Option.map_eq_some_iff.mp hv
      exact (hprevious q hq).version
    · intro v hv
      obtain ⟨q, hq, rfl⟩ := Option.map_eq_some_iff.mp hv
      exact (hprevious q hq).tag
    · intro c hc
      obtain ⟨q, hq, hqc⟩ := Option.bind_eq_some_iff.mp hc
      exact hbefore q hq c hqc

/-- A release that fits is stored with its entries; those of other versions stay as they are. -/
theorem Tables.Valid.addRelease_stores (h : t.Valid) (howner : t.repositories.has id = true)
    {record : ReleaseRecord} {es : List Entry}
    (hfits : Param.bind (Param.ofRelease ⟨id, { record with id := none }⟩) = .ok ())
    (hroom : t.releases.last + 1 < 2 ^ 63)
    (hes : ∀ e ∈ es, e.Unicode ∧ (Param.number e.position).fault? = none)
    (hkeys : es.Pairwise (·.key ≠ ·.key)) :
    ∃ u n t', t.putRelease id record = .ok (u, n) ∧ u.replaceEntries n es = .ok t' ∧ t'.Valid ∧
      t'.repositories = t.repositories ∧ t'.releases.last = t.releases.last + 1 ∧
      t'.HasRelease id { record with id := none } es ∧
      ∀ other os, other.version ≠ record.version →
        (t'.HasRelease id other os ↔ t.HasRelease id other os) := by
  obtain ⟨u, n, hput, hstores⟩ := h.putRelease_stores howner hfits
  have hrow : (⟨n, ⟨id, { record with id := none }⟩⟩ : Row (Part ReleaseRecord)) ∈
      u.releases.rows := hstores.stored
  have hlast : u.releases.last = t.releases.last + 1 := hstores.last
  have hsame : u.entries = t.entries := hstores.upserted.elsewhere .entries nofun
  have hn : (Param.number n).fault? = none :=
    hstores.valid.releases.fits_of_has (Table.has_of_mem hrow) (hlast ▸ hroom)
  obtain ⟨t', hreplace, hvalid, hentries, ⟨x, rfl⟩, hothers⟩ :=
    hstores.valid.replaceEntries_stores (Table.has_of_mem hrow) hn
      (fun e he => (Param.entry_fits_iff hn).mpr (hes e he)) hkeys
  refine ⟨u, n, _, hput, hreplace, hvalid, hstores.upserted.elsewhere .repositories nofun, hlast,
    ⟨n, hrow, hentries⟩, ?_⟩
  intro other os hversion
  -- a row of another version has another number, so its entries are not touched
  have hsameEntries {m : Int} (hm : (⟨m, ⟨id, other⟩⟩ : Row (Part ReleaseRecord)) ∈
      u.releases.rows) : Tables.EntriesOf { u with entries := x } m = t.EntriesOf m := by
    have hne : m ≠ n := by
      rintro rfl
      have hrows := hstores.valid.releases.eq_of_id hm hrow rfl
      exact hversion (congrArg (·.value.value.version) hrows)
    rw [hothers m hne, Tables.EntriesOf, Tables.EntriesOf, hsame]
  have hrows (m : Int) : (⟨m, ⟨id, other⟩⟩ : Row (Part ReleaseRecord)) ∈ u.releases.rows ↔
      (⟨m, ⟨id, other⟩⟩ : Row (Part ReleaseRecord)) ∈ t.releases.rows :=
    hstores.upserted.row.others _ fun hkey => hversion (Prod.mk.inj hkey).2
  constructor
  · rintro ⟨m, hm, hos⟩
    exact ⟨m, (hrows m).mp hm, (hsameEntries hm).symm.trans hos⟩
  · rintro ⟨m, hm, hos⟩
    exact ⟨m, (hrows m).mpr hm, (hsameEntries ((hrows m).mpr hm)).trans hos⟩

end Store

namespace Sync

open Store (Row Table)

variable {σ : State} {t : Tables} {id : Int} {fullName : Text} {commits : TagCommits}
  {r : Release} {rs : List Release}

/-! ### Storing releases -/

/-- The operations that store releases are in order. -/
structure ReleasesInOrder (σ : State) : Prop where
  insertRelease : σ.store.outOfOrder.contains .insertRelease = false
  replaceEntries : σ.store.outOfOrder.contains .replaceEntries = false

theorem ReleasesInOrder.withTables (h : ReleasesInOrder σ) (t : Tables) :
    ReleasesInOrder (σ.withTables t) :=
  ⟨h.insertRelease, h.replaceEntries⟩

/-- A release without lone surrogates, of which the bullets can be numbered. -/
structure Storable (r : Release) : Prop where
  unicode : r.Unicode
  bullets : (Changelog.bullets r).length ≤ 2 ^ 63

private theorem storeRelease_stores (resourcePrefix : Text) (ht : σ.store.tables = some t)
    (horder : ReleasesInOrder σ) (h : t.Valid) (howner : t.repositories.has id = true)
    (hr : Storable r) (record : ReleaseRecord)
    (hfits : Param.bind (Param.ofRelease ⟨id, { record with id := none }⟩) = .ok ())
    (hroom : t.releases.last + 1 < 2 ^ 63) :
    ∃ t' es, (storeRelease id resourcePrefix r record).run.run σ = (.ok (), σ.withTables t') ∧
      Changelog.entries resourcePrefix r = .ok es ∧ t'.Valid ∧
      t'.repositories = t.repositories ∧ t'.releases.last = t.releases.last + 1 ∧
      t'.HasRelease id { record with id := none } es ∧
      ∀ other os, other.version ≠ record.version →
        (t'.HasRelease id other os ↔ t.HasRelease id other os) := by
  obtain ⟨es, hes, hentries, hkeys⟩ := Changelog.entries_ok resourcePrefix hr.unicode
  have hpositions : ∀ e ∈ es, e.Unicode ∧ (Param.number e.position).fault? = none := by
    intro e he
    obtain ⟨hunicode, hnonneg, hlt⟩ := hentries e he
    have hbullets := hr.bullets
    exact ⟨hunicode, Param.fits_iff.mpr (by omega)⟩
  obtain ⟨u, n, t', hput, hreplace, hstored⟩ :=
    h.addRelease_stores howner hfits hroom hpositions hkeys
  have hinsert : (orFail (releaseFailure r.version) (writing (·.insertRelease id record))).run.run
      σ = (.ok n, σ.withTables u) := by
    refine (run_orFail_write _ horder.insertRelease ht).trans ?_
    rw [hput]
  have hupdate : (orFail (releaseFailure r.version) (updating (·.replaceEntries n es))).run.run
      (σ.withTables u) = (.ok (), σ.withTables t') := by
    have hu : (σ.withTables u).store.tables = some u := rfl
    refine (run_orFail_update _ (horder.withTables u).replaceEntries hu).trans ?_
    rw [hreplace]
    rfl
  refine ⟨t', es, ?_, hes, hstored⟩
  rw [storeRelease, run_bind_ok hinsert, hes]
  exact hupdate

private theorem storeRelease_fails (resourcePrefix : Text) (r : Release)
    (ht : σ.store.tables = some t) (horder : ReleasesInOrder σ)
    (howner : t.repositories.has id = true) (record : ReleaseRecord)
    (hfits : Param.bind (Param.ofRelease ⟨id, { record with id := none }⟩) ≠ .ok ()) :
    ∃ f, (storeRelease id resourcePrefix r record).run.run σ = (.error f, σ) := by
  obtain ⟨e, he, -⟩ := Param.exists_error_of_bind hfits
  have hinsert : (orFail (releaseFailure r.version) (writing (·.insertRelease id record))).run.run
      σ = (.error (releaseFailure r.version e), σ) := by
    refine (run_orFail_write _ horder.insertRelease ht).trans ?_
    rw [Tables.putRelease_eq howner, he]
    rfl
  exact ⟨_, by rw [storeRelease, run_bind_error hinsert]⟩

/-- Releases of which the commits fit are all stored with their entries: the last of each version is
there afterwards, and releases of other versions stay as they are. -/
theorem storeReleases_stores (resourcePrefix : Text) (ht : σ.store.tables = some t)
    (horder : ReleasesInOrder σ) (h : t.Valid) (howner : t.repositories.has id = true)
    (hid : (Param.number id).fault? = none) (hname : fullName.isUnicode = true)
    (hrs : ∀ r ∈ rs, Storable r)
    (hcommits : ∀ r ∈ rs, ∀ c ∈ commits.commit? r.tag, c.isUnicode = true)
    (hroom : t.releases.last + rs.length < 2 ^ 63) :
    ∃ t', (storeReleases id resourcePrefix
        (rs.zip (Changelog.chain fullName commits rs))).run.run σ = (.ok (), σ.withTables t') ∧
      t'.Valid ∧ t'.releases.last = t.releases.last + rs.length ∧
      (∀ before r after, rs = before ++ r :: after → (∀ q ∈ after, q.version ≠ r.version) →
        ∃ es, Changelog.entries resourcePrefix r = .ok es ∧
          t'.HasRelease id (Changelog.recordOf fullName commits r after.head?) es) ∧
      ∀ other os, (∀ q ∈ rs, other.version ≠ q.version) →
        (t'.HasRelease id other os ↔ t.HasRelease id other os) := by
  induction rs generalizing σ t with
  | nil =>
    refine ⟨t, ?_, h, (Int.add_zero _).symm, fun before r after hsplit => ?_, fun _ _ _ => Iff.rfl⟩
    · rw [withTables_of_eq ht]
      rfl
    · simp at hsplit
  | cons r rs ih =>
    obtain ⟨hr, hrest⟩ := List.forall_mem_cons.mp hrs
    obtain ⟨hcommit, hothers⟩ := List.forall_mem_cons.mp hcommits
    rw [List.length_cons] at hroom
    have hfits := (Param.release_fits_iff hid hname commits hr.unicode rs.head?
      fun q hq => (hrest q (List.mem_of_mem_head? hq)).unicode).mpr
        ⟨hcommit, fun q hq => hothers q (List.mem_of_mem_head? hq)⟩
    obtain ⟨u, es, hrun, hes, hvalid, hrepositories, hlast, hhas, hkept⟩ :=
      storeRelease_stores resourcePrefix ht horder h howner hr
        (Changelog.recordOf fullName commits r rs.head?) hfits (by omega)
    have hu : (σ.withTables u).store.tables = some u := rfl
    obtain ⟨t', hruns, hvalid', hlast', hstored, hkeeps⟩ := ih hu (horder.withTables u) hvalid
      (hrepositories ▸ howner) hrest hothers (by omega)
    refine ⟨t', ?_, hvalid', ?_, fun before q after hsplit hlater => ?_,
      fun other os hversions => ?_⟩
    · rw [Changelog.chain, List.zip_cons_cons, storeReleases, run_bind_ok hrun]
      exact hruns
    · rw [hlast', hlast, List.length_cons]
      omega
    · cases before with
      | nil =>
        obtain ⟨rfl, rfl⟩ := List.cons.inj hsplit
        exact ⟨es, hes, (hkeeps _ _ fun x hx => (hlater x hx).symm).mpr hhas⟩
      | cons x before =>
        obtain ⟨-, hsplit⟩ := List.cons.inj hsplit
        exact hstored before q after hsplit hlater
    · obtain ⟨hversion, hversions⟩ := List.forall_mem_cons.mp hversions
      exact (hkeeps other os hversions).trans (hkept other os hversion)

/-- A release of which the commit does not fit fails the capture. -/
theorem storeReleases_fails (resourcePrefix : Text) (ht : σ.store.tables = some t)
    (horder : ReleasesInOrder σ) (h : t.Valid) (howner : t.repositories.has id = true)
    (hid : (Param.number id).fault? = none) (hname : fullName.isUnicode = true)
    (hrs : ∀ r ∈ rs, Storable r)
    (hbad : ∃ r ∈ rs, ∃ c ∈ commits.commit? r.tag, c.isUnicode = false)
    (hroom : t.releases.last + rs.length < 2 ^ 63) :
    ∃ f τ, (storeReleases id resourcePrefix
      (rs.zip (Changelog.chain fullName commits rs))).run.run σ = (.error f, τ) := by
  induction rs generalizing σ t with
  | nil =>
    obtain ⟨r, hr, -⟩ := hbad
    exact nomatch hr
  | cons r rs ih =>
    obtain ⟨hr, hrest⟩ := List.forall_mem_cons.mp hrs
    rw [List.length_cons] at hroom
    have hfits := Param.release_fits_iff hid hname commits hr.unicode rs.head?
      fun q hq => (hrest q (List.mem_of_mem_head? hq)).unicode
    by_cases hrecord : Param.bind (Param.ofRelease
        ⟨id, Changelog.recordOf fullName commits r rs.head?⟩) = .ok ()
    · obtain ⟨u, es, hrun, -, hvalid, hrepositories, hlast, -⟩ :=
        storeRelease_stores resourcePrefix ht horder h howner hr
          (Changelog.recordOf fullName commits r rs.head?) hrecord (by omega)
      have hu : (σ.withTables u).store.tables = some u := rfl
      have hlater : ∃ q ∈ rs, ∃ c ∈ commits.commit? q.tag, c.isUnicode = false := by
        obtain ⟨q, hq, c, hc, hsurrogate⟩ := hbad
        rcases List.mem_cons.mp hq with rfl | hq
        · exact absurd ((hfits.mp hrecord).1 c hc) (by simp [hsurrogate])
        · exact ⟨q, hq, c, hc, hsurrogate⟩
      obtain ⟨f, τ, hruns⟩ := ih hu (horder.withTables u) hvalid (hrepositories ▸ howner) hrest
        hlater (by omega)
      refine ⟨f, τ, ?_⟩
      rw [Changelog.chain, List.zip_cons_cons, storeReleases, run_bind_ok hrun]
      exact hruns
    · obtain ⟨f, hrun⟩ := storeRelease_fails resourcePrefix r ht horder howner
        (Changelog.recordOf fullName commits r rs.head?) hrecord
      refine ⟨f, σ, ?_⟩
      rw [Changelog.chain, List.zip_cons_cons, storeReleases, run_bind_error hrun]

/-! ### Capturing them -/

variable {p : Plan} {remote : Remote} {s : Remote.Summary} {changelog : RepositoryFile}

/-- The commits that a listing of tags makes known, if the capture goes on after it: none after an
answer without tags. -/
def knownCommits? : Except Remote.Fault (List Remote.Tag) → Option TagCommits
  | .ok tags => some (tagCommits tags)
  | .error f => if f.isAnswer then some [] else none

/-- A listing after which the capture goes on tells tags with the commits that are known, and leaves
the store. -/
private theorem listTags_known (hknown : knownCommits?
    ((p.client.tags remote fullName p.tagPages).run.run σ.session).1 = some commits) :
    ∃ τ tags, τ.store = σ.store ∧ tagCommits tags = commits ∧
      (listTags p remote fullName).run.run σ = (.ok tags, τ) := by
  rw [listTags, run_bind, run_lift, run_asking]
  dsimp only
  revert hknown
  cases ((p.client.tags remote fullName p.tagPages).run.run σ.session).1 with
  | ok tags =>
    intro hknown
    cases hknown
    refine ⟨_, tags, ?_, rfl, rfl⟩
    rfl
  | error f =>
    intro hknown
    rw [knownCommits?] at hknown
    split at hknown
    · rename_i hanswer
      cases hknown
      simp only [hanswer, if_true]
      refine ⟨_, [], ?_, rfl, rfl⟩
      rfl
    · exact nomatch hknown

private theorem listTags_fails {f : Remote.Fault} (hanswer : f.isAnswer = false)
    (hf : ((p.client.tags remote fullName p.tagPages).run.run σ.session).1 = .error f) :
    ∃ τ, τ.store = σ.store ∧
      (listTags p remote fullName).run.run σ = (.error (.remote f), τ) := by
  rw [listTags, run_bind, run_lift, run_asking]
  dsimp only
  rw [hf]
  simp only [hanswer, Bool.false_eq_true, if_false]
  refine ⟨_, ?_, rfl⟩
  rfl

/-- The changelog of a repository is stored, in tables that calls to a store left, and the rows of
its releases can be numbered. -/
structure Capturable (p : Plan) (s : Remote.Summary) (id : Int) (changelog : RepositoryFile)
    (t : Tables) (σ : State) : Prop where
  reached : ∃ calls, t = (Store.ready.after calls).contents
  tables : σ.store.tables = some t
  inOrder : ReleasesInOrder σ
  numbered : t.Numbered s.name id
  stored : σ.store.file? s.name p.changelogPath = .ok (some changelog)
  fullName : s.fullName.isUnicode = true
  repositories : t.repositories.last < 2 ^ 63
  releases : t.releases.last + (Changelog.read p.releaseLimit changelog.content).length < 2 ^ 63
  bullets : ∀ r ∈ Changelog.read p.releaseLimit changelog.content,
    (Changelog.bullets r).length ≤ 2 ^ 63

namespace Capturable

theorem valid (h : Capturable p s id changelog t σ) : t.Valid := by
  obtain ⟨calls, rfl⟩ := h.reached
  exact (Store.ready_after calls).2

/-- What is read of a stored changelog has no lone surrogate. -/
theorem storable (h : Capturable p s id changelog t σ) :
    ∀ r ∈ Changelog.read p.releaseLimit changelog.content, Storable r := by
  obtain ⟨calls, hcalls⟩ := h.reached
  obtain ⟨-, u, hu, hfile⟩ := Store.read_ok.mp h.stored
  obtain rfl : t = u := Option.some.inj (h.tables.symm.trans hu)
  obtain ⟨⟨⟩, -, hfile⟩ := except_bind_eq_ok.mp hfile
  have hcontent : changelog.content.isUnicode = true := by
    split at hfile
    · exact nomatch hfile
    · obtain ⟨row, hrow, rfl⟩ := Option.map_eq_some_iff.mp (Except.ok.inj hfile)
      have hfits := Store.files_fit_after_calls calls row
        (hcalls ▸ List.mem_of_find?_eq_some hrow)
      exact Param.text_fits_iff.mp (Param.fits_of_bind hfits
        (by simp [Param.ofFile, Store.readFile]))
  exact fun r hr => ⟨Changelog.read_unicode hcontent r hr, h.bullets r hr⟩

theorem owner (h : Capturable p s id changelog t σ) :
    t.repositories.has id = true ∧ (Param.number id).fault? = none := by
  obtain ⟨row, hrow, rfl⟩ := h.numbered
  obtain ⟨hmem, -⟩ := h.valid.row?_eq_some.mp hrow
  have hthere := Table.has_of_mem hmem
  exact ⟨hthere, h.valid.repositories.fits_of_has hthere h.repositories⟩

/-- A capture lists the tags and stores the releases. -/
theorem run_eq (h : Capturable p s id changelog t σ)
    (hreleases : Changelog.read p.releaseLimit changelog.content ≠ []) (remote : Remote)
    (resourcePrefix : Text) :
    (captureReleases p remote id s resourcePrefix).run.run σ =
      (do
        let tags ← listTags p remote s.fullName
        let records := Changelog.chain s.fullName (tagCommits tags)
          (Changelog.read p.releaseLimit changelog.content)
        storeReleases id resourcePrefix
          ((Changelog.read p.releaseLimit changelog.content).zip records)
        return records.length : Step Nat).run.run σ := by
  have hread : (orFail .store (reading (·.file? s.name p.changelogPath))).run.run σ =
      (.ok (some changelog), σ) := by
    rw [run_orFail, run_reading, h.stored]
  have hempty : (Changelog.read p.releaseLimit changelog.content).isEmpty = false := by
    simpa using hreleases
  rw [captureReleases, run_bind_ok hread]
  simp only [hempty, Bool.false_eq_true, if_false]

end Capturable

private theorem length_chain (fullName : Text) (commits : TagCommits) (rs : List Release) :
    (Changelog.chain fullName commits rs).length = rs.length := by
  induction rs with
  | nil => rfl
  | cons r rs ih => rw [Changelog.chain, List.length_cons, List.length_cons, ih]

/-- After a listing that makes commits known, the releases are stored in the tables that were there
before. -/
theorem Capturable.run_known (h : Capturable p s id changelog t σ)
    (hreleases : Changelog.read p.releaseLimit changelog.content ≠ []) (remote : Remote)
    (resourcePrefix : Text) (hknown : knownCommits?
      ((p.client.tags remote s.fullName p.tagPages).run.run σ.session).1 = some commits) :
    let releases := Changelog.read p.releaseLimit changelog.content
    ∃ τ : State, τ.store = σ.store ∧ (captureReleases p remote id s resourcePrefix).run.run σ = (do
      storeReleases id resourcePrefix
        (releases.zip (Changelog.chain s.fullName commits releases))
      return releases.length : Step Nat).run.run τ := by
  intro releases
  obtain ⟨τ, tags, hstore, rfl, hlist⟩ := listTags_known hknown
  have hlength := length_chain s.fullName (tagCommits tags) releases
  refine ⟨τ, hstore, ?_⟩
  rw [← hlength]
  exact (h.run_eq hreleases remote resourcePrefix).trans (run_bind_ok hlist _)

/-- After a listing that makes commits known which can be encoded, all releases are stored. -/
theorem Capturable.run_stores (h : Capturable p s id changelog t σ)
    (hreleases : Changelog.read p.releaseLimit changelog.content ≠ []) (remote : Remote)
    (resourcePrefix : Text) (hknown : knownCommits?
      ((p.client.tags remote s.fullName p.tagPages).run.run σ.session).1 = some commits)
    (hcommits : ∀ r ∈ Changelog.read p.releaseLimit changelog.content,
      ∀ c ∈ commits.commit? r.tag, c.isUnicode = true) :
    let releases := Changelog.read p.releaseLimit changelog.content
    ∃ (τ : State) (t' : Tables), τ.store = σ.store ∧
      (captureReleases p remote id s resourcePrefix).run.run σ =
        (.ok releases.length, τ.withTables t') ∧ t'.Valid ∧
      t'.releases.last = t.releases.last + releases.length ∧
      (∀ before r after, releases = before ++ r :: after → (∀ q ∈ after, q.version ≠ r.version) →
        ∃ es, Changelog.entries resourcePrefix r = .ok es ∧
          t'.HasRelease id (Changelog.recordOf s.fullName commits r after.head?) es) ∧
      ∀ other os, (∀ q ∈ releases, other.version ≠ q.version) →
        (t'.HasRelease id other os ↔ t.HasRelease id other os) := by
  intro releases
  obtain ⟨howner, hid⟩ := h.owner
  obtain ⟨τ, hstore, hcapture⟩ := h.run_known hreleases remote resourcePrefix hknown
  have ht : τ.store.tables = some t := hstore ▸ h.tables
  have horder : ReleasesInOrder τ :=
    ⟨hstore ▸ h.inOrder.insertRelease, hstore ▸ h.inOrder.replaceEntries⟩
  obtain ⟨t', hrun, hstored⟩ := storeReleases_stores resourcePrefix ht horder h.valid howner hid
    h.fullName h.storable hcommits h.releases
  refine ⟨τ, t', hstore, ?_, hstored⟩
  rw [hcapture, run_bind_ok hrun]
  rfl

/-- A listing of tags that ends with tags, or with an answer without any, leads to all releases of
the changelog being stored with their entries and with the commits that are known, if these can be
encoded; if not, the capture fails. It fails without storing anything after any other failure of the
listing. -/
theorem captureReleases_captures (h : Capturable p s id changelog t σ)
    (hreleases : Changelog.read p.releaseLimit changelog.content ≠ []) (remote : Remote)
    (resourcePrefix : Text) :
    let releases := Changelog.read p.releaseLimit changelog.content
    let listing := ((p.client.tags remote s.fullName p.tagPages).run.run σ.session).1
    let capture := (captureReleases p remote id s resourcePrefix).run.run σ
    (∀ commits, knownCommits? listing = some commits →
      (∀ r ∈ releases, ∀ c ∈ commits.commit? r.tag, c.isUnicode = true) →
        capture.1 = .ok releases.length ∧ ∃ t', capture.2.store.tables = some t' ∧
          ∀ before r after, releases = before ++ r :: after →
            (∀ q ∈ after, q.version ≠ r.version) →
              ∃ es, Changelog.entries resourcePrefix r = .ok es ∧
                t'.HasRelease id (Changelog.recordOf s.fullName commits r after.head?) es) ∧
      (∀ commits, knownCommits? listing = some commits →
        (∃ r ∈ releases, ∃ c ∈ commits.commit? r.tag, c.isUnicode = false) →
          ∃ f, capture.1 = .error f) ∧
      ∀ f, listing = .error f → f.isAnswer = false →
        capture.1 = .error (.remote f) ∧ capture.2.store = σ.store := by
  intro releases listing capture
  obtain ⟨howner, hid⟩ := h.owner
  refine ⟨fun commits hknown hcommits => ?_, fun commits hknown hbad => ?_, fun f hf hanswer => ?_⟩
  · obtain ⟨τ, t', -, hrun, -, -, hstored, -⟩ :=
      h.run_stores hreleases remote resourcePrefix hknown hcommits
    refine ⟨congrArg Prod.fst hrun, t', ?_, hstored⟩
    exact congrArg (·.2.store.tables) hrun
  · obtain ⟨τ, hstore, hcapture⟩ := h.run_known hreleases remote resourcePrefix hknown
    have ht : τ.store.tables = some t := hstore ▸ h.tables
    have horder : ReleasesInOrder τ :=
      ⟨hstore ▸ h.inOrder.insertRelease, hstore ▸ h.inOrder.replaceEntries⟩
    obtain ⟨f, υ, hrun⟩ := storeReleases_fails resourcePrefix ht horder h.valid howner hid
      h.fullName h.storable hbad h.releases
    have hfails : capture = (.error f, υ) := hcapture.trans (run_bind_error hrun _)
    exact ⟨f, congrArg Prod.fst hfails⟩
  · obtain ⟨τ, hstore, hlist⟩ := listTags_fails hanswer hf
    have hrun : capture = (.error (.remote f), τ) :=
      (h.run_eq hreleases remote resourcePrefix).trans (run_bind_error hlist _)
    rw [hrun]
    exact ⟨rfl, hstore⟩

/-! ### A changelog with one release -/

/-- A changelog with one release of one bullet. -/
def shortChangelog : RepositoryFile :=
  ⟨1, "CHANGELOG.md", "CHANGELOG.md", "md", "## 1.0.0\n* a\n", 13⟩

/-- The calls that store a repository with the changelog. -/
def changelogCalls : List Store.Call :=
  [⟨[], .insertRepository ⟨none, "x", "a/x", none, [], none, none⟩⟩,
    ⟨[], .insertFile shortChangelog⟩]

/-- What the remote side says about the repository. -/
def changelogSummary : Remote.Summary :=
  ⟨"x", "a/x", none, "2024-01-01T00:00:00Z", [], false, false, 1⟩

/-- A plan that keeps one release. -/
def changelogPlan : Plan := ⟨.make none none, [], 1, "CHANGELOG.md", 1, 1, []⟩

/-- The state with the stored changelog, in which requests are admitted. -/
def changelogState : State :=
  ⟨⟨.full 9 1 0, 0, .empty 1, 0, []⟩, Store.ready.after changelogCalls, .empty, []⟩

/-- The capture of the release from a remote side that replies to every request alike. -/
def captureAnswered (reply : Remote.Reply) : Except Failure Nat × State :=
  (captureReleases changelogPlan (fun _ _ => reply) 1 changelogSummary []).run.run changelogState

private theorem changelog_capturable :
    Capturable changelogPlan changelogSummary 1 shortChangelog
      (Store.ready.after changelogCalls).contents changelogState where
  reached := ⟨changelogCalls, rfl⟩
  tables := (Store.ready_after changelogCalls).1
  inOrder := ⟨rfl, rfl⟩
  numbered := by
    refine ⟨⟨1, ⟨none, "x", "a/x", none, [], none, none⟩⟩, ?_, rfl⟩
    decide +kernel
  stored := by decide +kernel
  fullName := by decide +kernel
  repositories := by decide +kernel
  releases := by decide +kernel
  bullets := by decide +kernel

/-- The release is stored without a commit where the remote side refuses to list tags. -/
theorem captureReleases_captures_without_tags :
    (captureAnswered (.response ⟨500, none, []⟩)).1 = .ok 1 ∧
      ∃ t', (captureAnswered (.response ⟨500, none, []⟩)).2.store.tables = some t' ∧
        ∃ r es, Changelog.read changelogPlan.releaseLimit shortChangelog.content = [r] ∧
          Changelog.entries [] r = .ok es ∧
          t'.HasRelease 1 (Changelog.recordOf changelogSummary.fullName [] r none) es := by
  have hlength : (Changelog.read changelogPlan.releaseLimit shortChangelog.content).length = 1 := by
    decide +kernel
  obtain ⟨r, hr⟩ := List.length_eq_one_iff.mp hlength
  have hreleases : Changelog.read changelogPlan.releaseLimit shortChangelog.content ≠ [] := by
    simp [hr]
  obtain ⟨hcaptured, -, -⟩ := captureReleases_captures changelog_capturable hreleases
    (fun _ _ => .response ⟨500, none, []⟩) []
  obtain ⟨hcount, t', ht', hstored⟩ :=
    hcaptured [] (by decide +kernel) (by simp [TagCommits.commit?])
  obtain ⟨es, hes, hhas⟩ := hstored [] r [] hr (by simp)
  exact ⟨hlength ▸ hcount, t', ht', r, es, hr, hes, hhas⟩

/-- Where the remote side cannot be reached, the release is lost. -/
theorem captureReleases_loses_releases :
    ¬∀ (p : Plan) (s : Remote.Summary) (id : Int) (changelog : RepositoryFile) (t : Tables)
      (σ : State), Capturable p s id changelog t σ →
        ∀ (remote : Remote) (resourcePrefix : Text),
          ∀ r ∈ Changelog.read p.releaseLimit changelog.content,
            ∃ t', ((captureReleases p remote id s resourcePrefix).run.run σ).2.store.tables =
              some t' ∧ ∃ record es, record.version = r.version ∧ t'.HasRelease id record es := by
  intro h
  obtain ⟨r, hr⟩ : ∃ r, r ∈ Changelog.read changelogPlan.releaseLimit shortChangelog.content :=
    List.exists_mem_of_length_pos (by decide +kernel)
  obtain ⟨t', ht', record, es, -, n, hmem, -⟩ :=
    h _ _ _ _ _ _ changelog_capturable (fun _ _ => .fault ⟨"ConnectError", "failed"⟩) [] r hr
  have hlost : (captureAnswered (.fault ⟨"ConnectError", "failed"⟩)).2.store.tables.map
      (·.releases.rows) = some [] := by
    decide +kernel
  have hrows : t'.releases.rows = [] := by
    simpa [captureAnswered, ht'] using hlost
  rw [hrows] at hmem
  exact nomatch hmem

end Sync

end ProviderCatalog
