import ProviderCatalog.Proofs.Store.Hosted
import ProviderCatalog.Proofs.Sync.Isolation
import ProviderCatalog.Proofs.Sync.Refilling

/-!
# Syncing again is syncing afresh

A sync that gets an archive leaves of its repository what the same sync leaves in a store without
rows, whatever the earlier syncs stored: files, services, resources and releases with all that
belongs to them read back the same, numbers aside. So does the record but for one of its texts: a
readme text that an earlier sync stored stays if the sync stores none.

## Main definitions

* `Answers`, `answers`: what the remote side answers to the questions of a sync.
* `Begun`: where a sync stands when it begins to store the files of its archive.

## Main results

* `syncSteps_begun`: a sync that gets an archive comes to that point.
* `syncRepository_afresh`: what such a sync leaves of its repository.
* `syncRepository_keeps_readme`: it may leave a readme text of an earlier sync.
-/

namespace ProviderCatalog.Sync

open ProviderCatalog.Configuration (RepositorySource)
open Store (Param Tables ofTables succeeding)
open Store.Tables (Alone Bare Guest InRange)

/-- What the remote side answers to the questions of a sync, which are asked one after the other. -/
structure Answers where
  readme : Except Remote.Fault Text
  archive : Except Remote.Fault Bytes
  tags : Except Remote.Fault (List Remote.Tag)
deriving DecidableEq

/-- The answers of a remote side to a sync that begins with a session. -/
def answers (p : Plan) (remote : Remote) (s : Remote.Summary) (session : Remote.Session) :
    Answers :=
  let readme := (p.client.readme remote s.fullName).run.run session
  let archive := (p.client.archive remote (p.client.archiveUrl s.fullName)).run.run readme.2
  let tags := (p.client.tags remote s.fullName p.tagPages).run.run archive.2
  ⟨readme.1, archive.1, tags.1⟩

/-- The readme text that a sync stores after an answer. -/
def storedReadme (s : Remote.Summary) : Except Remote.Fault Text → Option Text
  | .ok text =>
    match Param.bind (Param.ofRepository (.ofSummary s (some text))) with
    | .ok _ => some text
    | .error _ => none
  | .error _ => none

variable {p : Plan} {remote : Remote} {s : Remote.Summary} {r : RepositorySource} {σ τ : State}
  {t u : Tables} {id : Int} {record : RepositoryRecord}

/-! ### The record -/

/-- A repository is cleared, or the step fails. -/
private theorem clear_run (about : Text) (hσ : σ.store = ofTables t) {done : Option Unit}
    (hrun : (orWarn about (updating (·.clearRepository id))).run.run σ = (.ok done, τ)) :
    ∃ u, t.clearRepository id = .ok u ∧ τ = { σ with store := ofTables u } := by
  have hupdate : σ.store.clearRepository id = (t.clearRepository id).map ofTables := by
    rw [hσ]
    exact Store.update_inOrder rfl rfl
  rw [run_orWarn, run_updating, hupdate] at hrun
  cases hclear : t.clearRepository id with
  | ok u =>
    rw [hclear] at hrun
    cases hrun
    exact ⟨u, rfl, rfl⟩
  | error f =>
    have hrefusal : f.isRefusal = false := by
      rw [Tables.clearRepository] at hclear
      cases hbind : Param.bind [.number id] with
      | ok _ =>
        rw [hbind] at hclear
        exact nomatch hclear
      | error g =>
        rw [hbind] at hclear
        cases hclear
        exact Store.bind_error hbind
    rw [hclear] at hrun
    dsimp only [Except.map] at hrun
    rw [hrefusal] at hrun
    exact nomatch hrun

/-- A record that is stored is cleared if there was one before. -/
private theorem storeRecord_ok (hσ : σ.store = ofTables t)
    (hrun : (storeRecord s).run.run σ = (.ok id, τ)) :
    ∃ v, t.putRepository (.ofSummary s none) = .ok (v, id) ∧
      ((t.row? s.name = none ∧ τ = { σ with store := ofTables v }) ∨
        ∃ x u, t.row? s.name = some x ∧ v.clearRepository id = .ok u ∧
          τ = { σ with store := ofTables u }) := by
  have hread : σ.store.repository? s.name = t.repository? s.name := by
    rw [hσ]
    exact Store.read_inOrder rfl rfl
  have hwrite : σ.store.insertRepository (.ofSummary s none) =
      (t.putRepository (.ofSummary s none)).map fun r => (ofTables r.1, r.2) := by
    rw [hσ]
    exact Store.write_inOrder rfl rfl
  rw [storeRecord, run_bind, run_orFail, run_reading, hread] at hrun
  cases hprior : t.repository? s.name with
  | error f =>
    rw [hprior] at hrun
    cases hrun
  | ok prior =>
    obtain ⟨⟨⟩, -, hfound⟩ := except_bind_eq_ok.mp hprior
    have hthere : prior.isSome = (t.row? s.name).isSome := by
      cases hfound
      exact Option.isSome_map
    rw [hprior] at hrun
    dsimp only at hrun
    rw [run_bind, run_orFail, run_writing, hwrite] at hrun
    cases hput : t.putRepository (.ofSummary s none) with
    | error f =>
      rw [hput] at hrun
      cases hrun
    | ok w =>
      obtain ⟨v, n⟩ := w
      rw [hput] at hrun
      dsimp only [Except.map] at hrun
      rw [hthere] at hrun
      cases hrow : t.row? s.name with
      | none =>
        rw [hrow] at hrun
        cases hrun
        exact ⟨v, rfl, .inl ⟨rfl, rfl⟩⟩
      | some x =>
        rw [hrow, if_pos Option.isSome_some, run_bind] at hrun
        rcases hclear : (orWarn ("Failed to clear old data for " ++ s.name)
          (updating (·.clearRepository n))).run.run { σ with store := ofTables v }
          with ⟨f | done, υ⟩
        · rw [hclear] at hrun
          cases hrun
        · obtain ⟨u, hu, rfl⟩ := clear_run _ rfl hclear
          rw [hclear] at hrun
          cases hrun
          exact ⟨v, rfl, .inr ⟨x, u, rfl, hu, rfl⟩⟩

/-- The record of a repository as it is stored in tables, with a readme text if there is one. -/
def recordOver (s : Remote.Summary) (readme : Option Text) (t : Tables) : RepositoryRecord :=
  (t.row? s.name).elim (.ofSummary s readme) fun old => succeeding (.ofSummary s readme) old.value

/-- Once the record is stored, nothing belongs to it. -/
private theorem storeRecord_bare (hσ : σ.store = ofTables t) (ht : t.Valid)
    (hrun : (storeRecord s).run.run σ = (.ok id, τ)) :
    (Param.text s.name).fault? = none ∧ ∃ u, τ = { σ with store := ofTables u } ∧
      u.Bare s.name id (recordOver s none t) ∧ (t = .empty → id = 1 ∧ u.Alone) := by
  obtain ⟨v, hput, hclear⟩ := storeRecord_ok hσ hrun
  refine ⟨Param.fits_of_bind (Tables.putRepository_ok hput).1 List.mem_cons_self, ?_⟩
  rw [recordOver]
  obtain ⟨hrow, rfl⟩ | ⟨x, u, hrow, hu, rfl⟩ := hclear
  · rw [hrow]
    refine ⟨v, rfl, .of_new ht hrow hput, fun hempty => ?_⟩
    obtain ⟨-, hv, hn⟩ := Tables.putRepository_ok hput
    subst hempty
    exact ⟨hn, by rw [hv]; rfl⟩
  · have hrow' := (Tables.row?_putRepository hput).1
    refine ⟨u, rfl, .of_clear (ht.putRepository hput) hrow' hu, fun hempty => ?_⟩
    subst hempty
    exact nomatch hrow

/-! ### The readme text -/

private theorem recordOver_some (s : Remote.Summary) (text : Text) (t : Tables) :
    succeeding (.ofSummary s (some text)) (recordOver s none t) = recordOver s (some text) t := by
  rw [recordOver, recordOver]
  cases t.row? s.name <;> rfl

/-- The readme text is stored in the record, unless there is none that can be. -/
private theorem storeReadme_bare (about : Text) {answer : Except Remote.Fault Text}
    {session : Remote.Session}
    (hasked : (p.client.readme remote s.fullName).run.run σ.session = (answer, session))
    (hσ : σ.store = ofTables u) (hu : u.Bare s.name id (recordOver s none t)) :
    let after := ((softly about (storeReadme p remote s)).run σ).2
    after.session = session ∧ ∃ v, after.store = ofTables v ∧
      v.Bare s.name id (recordOver s (storedReadme s answer) t) ∧ (u.Alone → v.Alone) := by
  intro after
  have hafter : after = ((softly about (storeReadme p remote s)).run σ).2 := rfl
  rw [run_softly, storeReadme, run_bind, run_orFail, run_asking, hasked] at hafter
  cases answer with
  | error f =>
    rw [hafter]
    exact ⟨rfl, u, hσ, hu, fun h => h⟩
  | ok text =>
    have hwrite : σ.store.insertRepository (.ofSummary s (some text)) =
        (u.putRepository (.ofSummary s (some text))).map fun r => (ofTables r.1, r.2) := by
      rw [hσ]
      exact Store.write_inOrder rfl rfl
    dsimp only at hafter
    rw [run_bind, run_orFail, run_writing] at hafter
    dsimp only at hafter
    rw [hwrite] at hafter
    cases hbind : Param.bind (Param.ofRepository (.ofSummary s (some text))) with
    | error f =>
      have hput : u.putRepository (.ofSummary s (some text)) = .error f := by
        rw [Tables.putRepository, hbind]
        rfl
      rw [hput] at hafter
      rw [hafter, storedReadme, hbind]
      exact ⟨rfl, u, hσ, hu, fun h => h⟩
    | ok _ =>
      obtain ⟨⟨v, n⟩, hput⟩ : ∃ w, u.putRepository (.ofSummary s (some text)) = .ok w :=
        ⟨_, except_bind_eq_ok.mpr ⟨(), hbind, rfl⟩⟩
      have hv := hu.putRepository hput
      rw [hput] at hafter
      rw [hafter, storedReadme, hbind]
      refine ⟨rfl, v, rfl, recordOver_some s text t ▸ hv, fun halone => ?_⟩
      obtain ⟨-, rfl, -⟩ := Tables.putRepository_ok hput
      rw [halone]
      rfl

/-! ### Up to the archive -/

/-- Where a sync stands when it begins to store the files of its archive: the record is stored under
a number and nothing belongs to it, and only the tags are still to be asked for. -/
structure Begun (p : Plan) (remote : Remote) (s : Remote.Summary) (given : Answers) (t : Tables)
    (id : Int) (data : Bytes) (σ : State) (u : Tables) : Prop where
  archive : given.archive = .ok data
  tags : ((p.client.tags remote s.fullName p.tagPages).run.run σ.session).1 = given.tags
  named : (Param.text s.name).fault? = none
  store : σ.store = ofTables u
  bare : u.Bare s.name id (recordOver s (storedReadme s given.readme) t)
  afresh : t = .empty → id = 1 ∧ u.Alone

/-- A sync of a repository that gets an archive comes to the point where it stores its files. -/
theorem syncSteps_begun (hσ : σ.store = ofTables t) (ht : t.Valid)
    (hrun : (syncSteps p remote s r).run.run σ = (.ok true, τ)) :
    ∃ id data υ u, Begun p remote s (answers p remote s σ.session) t id data υ u ∧
      (fillFrom p remote s r id data).run.run υ = (.ok true, τ) := by
  rw [syncSteps_eq, run_bind] at hrun
  rcases hrecord : (storeRecord s).run.run σ with ⟨f | id, σ₁⟩
  · rw [hrecord] at hrun
    cases hrun
  · rw [hrecord] at hrun
    dsimp only at hrun
    obtain ⟨hnamed, u, rfl, hu, hfresh⟩ := storeRecord_bare hσ ht hrecord
    rcases hasked : (p.client.readme remote s.fullName).run.run σ.session with ⟨readme, session⟩
    obtain ⟨hsession, v, hv, hbare, halone⟩ := storeReadme_bare
      ("Failed to fetch README for " ++ s.name) hasked (σ := { σ with store := ofTables u }) rfl hu
    rw [afterRecord, run_bind, run_lift] at hrun
    dsimp only at hrun hsession hv
    generalize ((softly _ (storeReadme p remote s)).run { σ with store := ofTables u }).2 = υ
      at hrun hsession hv
    rw [run_bind, run_lift, run_asking] at hrun
    dsimp only at hrun
    rcases harchive : (p.client.archive remote (p.client.archiveUrl s.fullName)).run.run υ.session
      with ⟨archive, session'⟩
    rw [harchive] at hrun
    have hanswers : answers p remote s σ.session = ⟨readme, archive,
        ((p.client.tags remote s.fullName p.tagPages).run.run session').1⟩ := by
      simp only [answers, hasked, ← hsession, harchive]
    rw [hanswers]
    split at hrun
    · rw [run_bind] at hrun
      rcases hdrop : (dropRecord s id).run.run { υ with session := session' } with ⟨f | _, _⟩
      · rw [hdrop] at hrun
        cases hrun
      · rw [hdrop] at hrun
        cases hrun
    · cases hrun
    · rename_i data heq
      dsimp only at heq
      subst heq
      exact ⟨id, data, { υ with session := session' }, v, ⟨rfl, rfl, hnamed, hv, hbare,
        fun hempty => ⟨(hfresh hempty).1, halone (hfresh hempty).2⟩⟩, hrun⟩

/-! ### After the sync -/

/-- A sync that begins as one in a store without rows does leaves of its repository what that one
leaves, but for the record. -/
private theorem fillFrom_holdings {remote' : Remote} {given : Answers} {offset : Int}
    {data data' : Bytes} {host guest : Tables} {σ' τ' : State} {done done' : Except Failure Bool}
    (hhost : Begun p remote s given t (offset + 1) data σ host)
    (hguest : Begun p remote' s given .empty 1 data' τ guest)
    (hσ : (fillFrom p remote s r (offset + 1) data).run.run σ = (done, σ'))
    (hτ : (fillFrom p remote' s r 1 data').run.run τ = (done', τ')) (hrange : On InRange σ') :
    ∃ x y, σ'.store.holdings? s.name = .ok (some x) ∧ τ'.store.holdings? s.name = .ok (some y) ∧
      y.unnumbered.record = .ofSummary s (storedReadme s given.readme) ∧
      x.unnumbered = { y.unnumbered with
        record := recordOver s (storedReadme s given.readme) t } := by
  have hdata : data = data' := Except.ok.inj (hhost.archive.symm.trans hguest.archive)
  subst hdata
  have hgrows : Grows (fillFrom p remote s r (offset + 1) data) :=
    .of_fills (fillFrom_fills p remote s r data)
  have hin : host.InRange :=
    hgrows.inRange (by rwa [hσ]) host (congrArg Store.tables hhost.store)
  have hfits : (Param.number (offset + 1)).fault? = none := by
    obtain ⟨hmem, -⟩ := hhost.bare.valid.row?_eq_some.mp hhost.bare.row
    exact hhost.bare.valid.repositories.fits_of_has (Store.Table.has_of_mem hmem)
      hin.repositories
  have hcan := hhost.bare.canHost hfits
  have halone := (hguest.afresh rfl).2
  have hbeside : Beside host offset s.name (fun x x' =>
      ((p.client.tags remote s.fullName p.tagPages).run.run x).1 =
        ((p.client.tags remote' s.fullName p.tagPages).run.run x').1) σ τ := by
    refine ⟨hhost.tags.trans hguest.tags.symm, guest, hguest.bare.guest halone, ?_, hguest.store⟩
    rw [Store.Tables.hosting_alone hhost.bare.valid halone, hhost.store]
  have hparallel := fillFrom_parallel hcan p remote remote' hhost.bare.numbered r data
    (fun _ _ h => h) σ τ hbeside (by rwa [hσ])
  rw [hσ, hτ] at hparallel
  obtain ⟨t', ht', hstore, hstore'⟩ := hparallel.1.stores
  dsimp only at hstore hstore'
  -- the record of the guest is as it was when the sync began to fill its tables
  have hrow : t'.row? s.name = some ⟨1, .ofSummary s (storedReadme s given.readme)⟩ := by
    obtain ⟨u, hu, hfilled⟩ := ((fillFrom_fills p remote' s r data τ trivial).1).exists
      (congrArg Store.tables hguest.store)
    rw [hτ, hstore'] at hu
    cases hu
    exact (Tables.row?_congr hfilled.repositories s.name).trans hguest.bare.row
  have hid : ({ recordOver s (storedReadme s given.readme) t with id := none } : RepositoryRecord) =
      recordOver s (storedReadme s given.readme) t := by
    rw [recordOver]
    cases t.row? s.name <;> rfl
  obtain ⟨x, y, hx, hy, hrecord, hsame⟩ := hcan.holdings ht'
    (hrange _ (congrArg Store.tables hstore)) hhost.named hhost.bare.row hrow
  rw [hid] at hsame
  exact ⟨x, y, hstore ▸ hx, hstore' ▸ hy, hrecord, hsame⟩

/-- A sync that succeeds with an archive has done so under its lock. -/
private theorem syncRepository_ok
    (h : ((syncRepository p remote s r).run σ).1 = ⟨s.name, true, none, false⟩) :
    ∃ τ, (syncSteps p remote s r).run.run { σ with locks := ⟨s.fullName :: σ.locks.held⟩ } =
        (.ok true, τ) ∧ ((syncRepository p remote s r).run σ).2.store = τ.store := by
  cases hheld : σ.locks.isHeld s.fullName with
  | true =>
    rw [syncRepository_held p remote r hheld] at h
    exact nomatch (congrArg RepositoryResult.success h : false = true)
  | false =>
    rw [syncRepository_free p remote r hheld] at h ⊢
    dsimp only at h ⊢
    generalize (syncSteps p remote s r).run.run
      { σ with locks := ⟨s.fullName :: σ.locks.held⟩ } = steps at h ⊢
    obtain ⟨f | available, τ⟩ := steps
    · exact nomatch (congrArg RepositoryResult.success h : false = true)
    · cases available with
      | false => exact nomatch (congrArg RepositoryResult.unavailable h : true = false)
      | true => exact ⟨τ, rfl, rfl⟩

/-- If a sync of a repository over earlier syncs and one in a store without rows get the same
answers and both succeed with an archive, then the repository reads back the same from both stores
afterwards, numbers aside: its files, services, resources and releases with all that belongs to
them, and its record but for the readme text, which stays from an earlier sync where this one stored
none. Numbers of rows have 64 bits. -/
theorem syncRepository_afresh (p : Plan) (remote remote' : Remote) (s : Remote.Summary)
    (r : RepositorySource) {σ τ : State} (h : Reached σ.store) (horder : σ.store.outOfOrder = [])
    (hready : τ.store = .ready)
    (hanswers : answers p remote s σ.session = answers p remote' s τ.session)
    (hσ : ((syncRepository p remote s r).run σ).1 = ⟨s.name, true, none, false⟩)
    (hτ : ((syncRepository p remote' s r).run τ).1 = ⟨s.name, true, none, false⟩)
    (hrange : On InRange ((syncRepository p remote s r).run σ).2) :
    ∃ prior x y, σ.store.repository? s.name = .ok prior ∧
      ((syncRepository p remote s r).run σ).2.store.holdings? s.name = .ok (some x) ∧
      ((syncRepository p remote' s r).run τ).2.store.holdings? s.name = .ok (some y) ∧
      x.unnumbered = { y.unnumbered with
        record := prior.elim y.unnumbered.record (succeeding y.unnumbered.record) } := by
  obtain ⟨t, ht, hproper⟩ := h.tables
  have hstore : σ.store = ofTables t :=
    calc σ.store = ⟨σ.store.tables, σ.store.outOfOrder⟩ := rfl
      _ = ofTables t := by rw [ht, horder]
  obtain ⟨σ', hsteps, hσ'⟩ := syncRepository_ok hσ
  obtain ⟨τ', hsteps', hτ'⟩ := syncRepository_ok hτ
  obtain ⟨id, data, υ, u, hbegun, hfill⟩ := syncSteps_begun
    (σ := { σ with locks := ⟨s.fullName :: σ.locks.held⟩ }) hstore hproper.valid hsteps
  obtain ⟨id', data', υ', u', hbegun', hfill'⟩ := syncSteps_begun
    (σ := { τ with locks := ⟨s.fullName :: τ.locks.held⟩ }) hready .empty hsteps'
  obtain ⟨rfl, -⟩ := hbegun'.afresh rfl
  obtain ⟨offset, rfl⟩ : ∃ offset, id = offset + 1 := ⟨id - 1, (Int.sub_add_cancel id 1).symm⟩
  dsimp only at hbegun hbegun'
  rw [← hanswers] at hbegun'
  obtain ⟨x, y, hx, hy, hrecord, hsame⟩ := fillFrom_holdings hbegun hbegun' hfill hfill' fun u hu =>
    hrange u (hσ' ▸ hu)
  have hread : σ.store.repository? s.name = .ok ((t.row? s.name).map Store.readRecord) := by
    rw [hstore]
    exact except_bind_eq_ok.mpr ⟨(), rfl, except_bind_eq_ok.mpr
      ⟨(), Param.bind_of_fits hbegun.named [], rfl⟩⟩
  refine ⟨_, x, y, hread, hσ' ▸ hx, hτ' ▸ hy, hsame.trans ?_⟩
  rw [hrecord, recordOver]
  cases t.row? s.name <;> rfl

/-! ### A repository whose files change -/

/-- A remote side that answers the first request with a readme file, if there is one, and every
other request with an archive. -/
def offering (readme : Option Bytes) (data : Bytes) : Remote := fun sent _ => .response
  (if sent.isEmpty then (readme.elim ⟨404, none, []⟩ (⟨200, none, ·⟩)) else ⟨200, none, data⟩)

/-- A readme file with a short text. -/
def shortReadme : Bytes := "\x7b\"content\":\"aGk=\"\x7d".toList.map fun c => UInt8.ofNat c.toNat

/-- An archive with one file, called a. -/
def archiveOfA : Bytes :=
  [31, 139, 8, 0, 0, 0, 0, 0, 0, 0, 171, 208, 79, 100, 160, 53, 48, 0, 2, 51, 19, 19, 48, 13, 4,
    232, 52, 16, 24, 33, 177, 65, 226, 102, 198, 38, 230, 12, 10, 6, 12, 116, 0, 165, 197, 37, 137,
    69, 64, 43, 25, 70, 38, 200, 200, 100, 24, 5, 35, 24, 0, 0, 207, 70, 53, 75, 0, 4, 0, 0]

/-- An archive with one file, called b. -/
def archiveOfB : Bytes :=
  [31, 139, 8, 0, 0, 0, 0, 0, 0, 0, 171, 208, 79, 98, 160, 53, 48, 0, 2, 51, 19, 19, 48, 13, 4,
    232, 52, 16, 24, 33, 177, 65, 226, 102, 198, 166, 6, 12, 10, 6, 12, 116, 0, 165, 197, 37, 137,
    69, 64, 43, 25, 70, 38, 200, 200, 100, 24, 5, 35, 24, 0, 0, 13, 72, 24, 49, 0, 4, 0, 0]

/-- A state with a store, in which requests are admitted. -/
def openState (store : Store) : State := ⟨⟨.full 9 1 0, 0, .empty 1, 0, []⟩, store, .empty, []⟩

/-- The sync of a repository over a store. -/
def syncOffered (readme : Option Bytes) (data : Bytes) (store : Store) : RepositoryResult × State :=
  (syncRepository idlePlan (offering readme data) (ownedSummary "a" "x") ⟨"a/x", none, true⟩).run
    (openState store)

/-- What a store holds about the repository. -/
def held (store : Store) : List Text × Option Text :=
  match store.holdings? "x" with
  | .ok (some x) => (x.files.map (·.path), x.record.readme)
  | _ => ([], none)

/-- The store after a sync that found a readme file. -/
def formerStore : Store := (syncOffered (some shortReadme) archiveOfA .ready).2.store

private theorem reached_formerStore : Reached formerStore :=
  .synced (σ := openState .ready) .ready _ _ _ _

set_option maxRecDepth 100000 in
/-- Later both the file is another one and the readme file is gone. -/
private theorem offered_later :
    let again := syncOffered none archiveOfB formerStore
    let afresh := syncOffered none archiveOfB .ready
    formerStore.outOfOrder = [] ∧ held formerStore = ([("a" : Text)], some ("hi" : Text)) ∧
      again.1 = ⟨"x", true, none, false⟩ ∧ afresh.1 = ⟨"x", true, none, false⟩ ∧
      On InRange again.2 ∧ held again.2.store = ([("b" : Text)], some ("hi" : Text)) ∧
      held afresh.2.store = ([("b" : Text)], none) := by
  decide +kernel

/-- After the file of a repository was renamed and its readme file removed, a sync leaves the new
file only. -/
theorem syncRepository_afresh_of_x :
    let again := syncOffered none archiveOfB formerStore
    held formerStore = ([("a" : Text)], some ("hi" : Text)) ∧
      again.1 = ⟨"x", true, none, false⟩ ∧
      held again.2.store = ([("b" : Text)], some ("hi" : Text)) ∧
      ∃ prior x y, formerStore.repository? "x" = .ok prior ∧
        again.2.store.holdings? "x" = .ok (some x) ∧
        (syncOffered none archiveOfB .ready).2.store.holdings? "x" = .ok (some y) ∧
        x.unnumbered = { y.unnumbered with
          record := prior.elim y.unnumbered.record (succeeding y.unnumbered.record) } := by
  obtain ⟨horder, hheld, hagain, hafresh, hrange, hheld', -⟩ := offered_later
  exact ⟨hheld, hagain, hheld', syncRepository_afresh idlePlan (offering none archiveOfB)
    (offering none archiveOfB) (ownedSummary "a" "x") ⟨"a/x", none, true⟩
    (σ := openState formerStore) (τ := openState .ready) reached_formerStore horder rfl rfl hagain
    hafresh hrange⟩

/-- A readme text that an earlier sync stored survives a sync that does not find one. -/
theorem syncRepository_keeps_readme :
    ¬∀ (p : Plan) (remote remote' : Remote) (s : Remote.Summary) (r : RepositorySource)
      (σ τ : State), Reached σ.store → σ.store.outOfOrder = [] → τ.store = .ready →
        answers p remote s σ.session = answers p remote' s τ.session →
        ((syncRepository p remote s r).run σ).1 = ⟨s.name, true, none, false⟩ →
        ((syncRepository p remote' s r).run τ).1 = ⟨s.name, true, none, false⟩ →
        ∃ x y, ((syncRepository p remote s r).run σ).2.store.holdings? s.name = .ok (some x) ∧
          ((syncRepository p remote' s r).run τ).2.store.holdings? s.name = .ok (some y) ∧
          x.unnumbered = y.unnumbered := by
  intro h
  obtain ⟨horder, -, hagain, hafresh, -, hheld, hheld'⟩ := offered_later
  obtain ⟨x, y, hx, hy, hsame⟩ := h idlePlan (offering none archiveOfB) (offering none archiveOfB)
    (ownedSummary "a" "x") ⟨"a/x", none, true⟩ (openState formerStore) (openState .ready)
    reached_formerStore horder rfl rfl hagain hafresh
  replace hx : (syncOffered none archiveOfB formerStore).2.store.holdings? "x" = .ok (some x) := hx
  replace hy : (syncOffered none archiveOfB .ready).2.store.holdings? "x" = .ok (some y) := hy
  rw [held, hx] at hheld
  rw [held, hy] at hheld'
  have hreadme : x.record.readme = y.record.readme := congrArg (·.record.readme) hsame
  exact nomatch (congrArg Prod.snd hheld).symm.trans (hreadme.trans (congrArg Prod.snd hheld'))

end ProviderCatalog.Sync
