import ProviderCatalog.Proofs.Sync.History
import ProviderCatalog.Proofs.Remote.Requests
import ProviderCatalog.Proofs.Sync.Resync
import Mathlib.Data.List.Nodup

/-!
# Updating twice

A run syncs the repositories without a mark one after the other, and does not touch the records of
the others. If the repositories have different names and no sync fails, then in the end each of them
has a record of the time that was reported, but for those without an archive, which may have none.
The syncs of repositories without a record do not touch what belongs to other records.

An updating run that follows one without errors finds nothing to do, as long as the repositories are
reported as before and there are tokens to look them up: each of them has a record of the time that
was reported. The only ones to be synced again are those whose archive was not available, and of
which no record is left. All others are skipped, nothing is asked about them once they are looked
up, and nothing that belongs to them is touched.

## Main definitions

* `Settled`: where the tables stand with a repository after a run without errors.
* `Plan.lookUpRequests`: the requests that were sent once a run has looked up its repositories.
* `marksBy`: the marks that an opening puts by the records of the tables.
* `Left`: a store as a run without errors leaves it.
* `Repeats`: a run that syncs nothing but repositories whose archive was not available.

## Main results

* `syncRepository_tables`: the tables before and after a sync.
* `settle_settled`, `Plan.ledger_settled`: a run without errors settles all repositories.
* `settle_spares`: the syncs of repositories without a record spare what belongs to the others.
* `lookUp_reported`: repositories that are reported are looked up.
* `Plan.updates_left`: how an updating run without errors leaves the store.
* `Plan.updates_repeat`: an updating run after one without errors.
-/

namespace ProviderCatalog.Sync

open ProviderCatalog.Configuration (RepositorySource)
open Store (Tables)
open Store.Tables (SameOthers)

variable {p : Plan} {remote : Remote} {σ τ : State} {t t' : Tables} {e : Found × Account}
  {marks : List (Found × Bool)} {l : Ledger}

/-- Where the tables stand with a repository after a run without errors: they have a record of the
time that was reported, or the archive was not available and they have no record. -/
def Settled (t : Tables) (e : Found × Account) : Prop :=
  t.updated? e.1.1.name = some e.1.1.updatedAt ∨
    t.row? e.1.1.name = none ∧ e.2.isUnavailable = true

theorem Settled.congr (h : Settled t e) (hrow : t'.row? e.1.1.name = t.row? e.1.1.name) :
    Settled t' e := by
  rwa [Settled, Tables.updated?, hrow]

/-- The tables before and after a sync: a sync whose lock is held leaves them. -/
theorem syncRepository_tables (p : Plan) (remote : Remote) (s : Remote.Summary)
    (r : RepositorySource) (ht : σ.store.tables = some t) :
    let run := (syncRepository p remote s r).run σ
    run.2.store.outOfOrder = σ.store.outOfOrder ∧ ∃ t', run.2.store.tables = some t' ∧
      (t' = t ∧ run.1 = failed s heldReason ∨
        ∃ outcome, run.1 = told s outcome ∧ Synced s σ.store.outOfOrder t outcome t') := by
  intro run
  obtain ⟨-, horder, ⟨-, hresult, hstore⟩ | ⟨-, outcome, hresult, hsynced⟩⟩ :=
    syncRepository_synced p remote r s σ
  · exact ⟨horder, t, (congrArg Store.tables hstore).trans ht, .inl ⟨rfl, hresult⟩⟩
  · obtain ⟨t', ht', hsynced⟩ := hsynced t ht
    exact ⟨horder, t', ht', .inr ⟨outcome, hresult, hsynced⟩⟩

theorem settle_cons_marked (p : Plan) (remote : Remote) (f : Found) (marks : List (Found × Bool))
    (σ : State) : (settle p remote ((f, true) :: marks)).run σ =
      ((f, .skipped) :: ((settle p remote marks).run σ).1, ((settle p remote marks).run σ).2) := rfl

theorem settle_cons_unmarked (p : Plan) (remote : Remote) (f : Found)
    (marks : List (Found × Bool)) (σ : State) :
    (settle p remote ((f, false) :: marks)).run σ =
      let sync := (syncRepository p remote f.1 f.2).run σ
      ((f, .synced sync.1) :: ((settle p remote marks).run sync.2).1,
        ((settle p remote marks).run sync.2).2) := rfl

/-! ### Runs without errors -/

/-- A repository whose sync did not fail is settled. -/
theorem Synced.settled {f : Found} {order : List Store.Operation} {outcome : Except Failure Bool}
    (h : Synced f.1 order t outcome t') (ht : t.Valid)
    (hresult : (Account.synced (told f.1 outcome)).error? = none) :
    Settled t' (f, .synced (told f.1 outcome)) := by
  rcases h.leaves ht with ⟨-, x, rfl⟩ | ⟨htime, -⟩ | ⟨hgone, rfl⟩
  · exact nomatch hresult
  · exact .inl htime
  · exact .inr ⟨hgone, rfl⟩

/-- If the repositories have different names and no sync fails, a run settles all of them, and does
not touch the records with other names. -/
theorem settle_settled (ht : σ.store.tables = some t) (hvalid : t.Valid)
    (hmarked : ∀ m ∈ marks, m.2 = true → t.updated? m.1.1.name = some m.1.1.updatedAt)
    (hnames : (marks.map (·.1.1.name)).Nodup)
    (herrors : ∀ e ∈ ((settle p remote marks).run σ).1, e.2.error? = none) :
    let run := (settle p remote marks).run σ
    run.2.store.outOfOrder = σ.store.outOfOrder ∧ ∃ t', run.2.store.tables = some t' ∧ t'.Valid ∧
      (∀ e ∈ run.1, Settled t' e) ∧
      ∀ name ∉ marks.map (·.1.1.name), t'.row? name = t.row? name := by
  induction marks generalizing σ t with
  | nil => exact ⟨rfl, t, ht, hvalid, nofun, fun _ _ => rfl⟩
  | cons m marks ih =>
    obtain ⟨f, mark⟩ := m
    rw [List.map_cons, List.nodup_cons] at hnames
    rw [List.forall_mem_cons] at hmarked
    simp only [List.map_cons, List.mem_cons, not_or]
    cases mark with
    | true =>
      rw [settle_cons_marked] at herrors ⊢
      have hrest := fun e he => herrors e (List.mem_cons_of_mem _ he)
      obtain ⟨horder, t', ht', hvalid', hsettled, hkept⟩ := ih ht hvalid hmarked.2 hnames.2 hrest
      refine ⟨horder, t', ht', hvalid', List.forall_mem_cons.mpr ⟨?_, hsettled⟩,
        fun name hname => hkept name hname.2⟩
      exact Settled.congr (.inl (hmarked.1 rfl)) (hkept _ hnames.1)
    | false =>
      rw [settle_cons_unmarked] at herrors ⊢
      obtain ⟨horder, t₁, ht₁, hsync⟩ := syncRepository_tables p remote f.1 f.2 ht
      generalize (syncRepository p remote f.1 f.2).run σ = sync at herrors horder ht₁ hsync ⊢
      obtain ⟨result, τ⟩ := sync
      have herror : (Account.synced result).error? = none := herrors _ List.mem_cons_self
      have hrest := fun e he => herrors e (List.mem_cons_of_mem _ he)
      rcases hsync with ⟨-, rfl⟩ | ⟨outcome, rfl, hsynced⟩
      · exact nomatch herror
      · have hmarked₁ (m) (hm : m ∈ marks) (htrue : m.2 = true) :
            t₁.updated? m.1.1.name = some m.1.1.updatedAt := by
          have hne : m.1.1.name ≠ f.1.name := fun h => hnames.1 (List.mem_map.mpr ⟨m, hm, h⟩)
          exact (hsynced.updated?_other hvalid hne).trans (hmarked.2 m hm htrue)
        obtain ⟨horder', t', ht', hvalid', hsettled, hkept⟩ :=
          ih ht₁ (hsynced.valid hvalid) hmarked₁ hnames.2 hrest
        refine ⟨horder'.trans horder, t', ht', hvalid', List.forall_mem_cons.mpr ⟨?_, hsettled⟩,
          fun name hname => (hkept name hname.2).trans (hsynced.row?_other hvalid hname.1)⟩
        exact (hsynced.settled hvalid herror).congr (hkept _ hnames.1)

/-- What could be read once can be read again while the store has tables. -/
theorem reads_again {store store' : Store} {name : Text} {stored : Option RepositoryRecord}
    (h : store.repository? name = .ok stored) (horder : store'.outOfOrder = store.outOfOrder)
    (ht : store'.tables = some t) :
    store'.repository? name = .ok ((t.row? name).map Store.readRecord) := by
  obtain ⟨hreading, u, -, hread⟩ := Store.read_ok.mp h
  obtain ⟨_, hfits, -⟩ := except_bind_eq_ok.mp hread
  exact Store.read_ok.mpr ⟨horder ▸ hreading, t, ht, except_bind_eq_ok.mpr ⟨(), hfits, rfl⟩⟩

/-- A repository that an opening marks has a record of the time that was reported. -/
theorem Opened.updated?_of_mark {mode : Mode} (h : Opened p mode marks σ)
    (ht : σ.store.tables = some t) {m : Found × Bool} (hm : m ∈ marks) (hmark : m.2 = true) :
    t.updated? m.1.1.name = some m.1.1.updatedAt := by
  cases mode with
  | full => exact nomatch hmark.symm.trans (h.full rfl m hm)
  | updates =>
    obtain ⟨stored, hstored, hmarked⟩ := h.updates rfl m hm
    cases Except.ok.inj (hstored.symm.trans (reads_again hstored rfl ht))
    exact isUpToDate_readRecord.mp (hmarked.symm.trans hmark)

/-- A run without errors settles its repositories if they have different names. -/
theorem Plan.ledger_settled {mode : Mode} (ht : σ.store.tables = some t) (hvalid : t.Valid)
    (hledger : (p.ledger remote mode).run.run σ = (.ok l, τ))
    (herrors : ∀ e ∈ l, e.2.error? = none) (hnames : (l.map (·.1.1.name)).Nodup) :
    τ.store.outOfOrder = σ.store.outOfOrder ∧
      ∃ t', τ.store.tables = some t' ∧ t'.Valid ∧ ∀ e ∈ l, Settled t' e := by
  obtain ⟨marks, υ, hopening, hsettle⟩ := Plan.exists_marks hledger
  obtain ⟨haside, hopened⟩ := (opening_opens p remote mode).of_run trivial hopening
  replace hopened := hopened marks rfl
  have hυ : υ.store.tables = some t := haside.store ▸ ht
  have hlines := settle_lines p remote marks υ
  rw [hsettle] at hlines
  have hnames' : (marks.map (·.1.1.name)).Nodup := by
    rw [← hlines, List.map_map]
    exact hnames
  have hnone : ∀ e ∈ ((settle p remote marks).run υ).1, e.2.error? = none := by
    rw [hsettle]
    exact herrors
  have hafter := settle_settled hυ hvalid (fun _ => hopened.updated?_of_mark hυ) hnames' hnone
  rw [hsettle] at hafter
  obtain ⟨horder, t', ht', hvalid', hsettled, -⟩ := hafter
  exact ⟨horder.trans (congrArg Store.outOfOrder haside.store), t', ht', hvalid', hsettled⟩

/-! ### Repositories without a record -/

/-- The extents of a name are the same if those of all names but another one are. -/
theorem filter_sameOthers {name other : Text} (h : SameOthers other t t') (hname : name ≠ other) :
    t'.extents.filter (·.record.value.name == name) =
      t.extents.filter (·.record.value.name == name) := by
  have hfilter (u : Tables) : u.extents.filter (·.record.value.name == name) =
      (u.extents.filter (·.record.value.name != other)).filter (·.record.value.name == name) := by
    rw [List.filter_filter]
    refine List.filter_congr fun x _ => ?_
    by_cases hx : x.record.value.name = name
    · simp [hx, hname]
    · simp [hx]
  rw [hfilter, hfilter, h]

/-- The syncs of repositories without a record spare what belongs to records with other names. -/
theorem settle_spares (p : Plan) (remote : Remote) (ht : σ.store.tables = some t) (hvalid : t.Valid)
    (habsent : ∀ m ∈ marks, m.2 = false → t.row? m.1.1.name = none)
    (hnames : (marks.map (·.1.1.name)).Nodup) :
    ∃ t', ((settle p remote marks).run σ).2.store.tables = some t' ∧
      ∀ name, (∀ m ∈ marks, m.2 = false → m.1.1.name ≠ name) →
        t'.extents.filter (·.record.value.name == name) =
          t.extents.filter (·.record.value.name == name) := by
  induction marks generalizing σ t with
  | nil => exact ⟨t, ht, fun _ _ => rfl⟩
  | cons m marks ih =>
    obtain ⟨f, mark⟩ := m
    rw [List.map_cons, List.nodup_cons] at hnames
    simp only [List.forall_mem_cons] at habsent ⊢
    cases mark with
    | true =>
      obtain ⟨t', ht', hspared⟩ := ih ht hvalid habsent.2 hnames.2
      exact ⟨t', ht', fun name hname => hspared name hname.2⟩
    | false =>
      rw [settle_cons_unmarked]
      obtain ⟨-, t₁, ht₁, ⟨rfl, -⟩ | ⟨outcome, -, hsynced⟩⟩ :=
        syncRepository_tables p remote f.1 f.2 ht
      · obtain ⟨t', ht', hspared⟩ := ih ht₁ hvalid habsent.2 hnames.2
        exact ⟨t', ht', fun name hname => hspared name hname.2⟩
      · have habsent₁ (m) (hm : m ∈ marks) (hfalse : m.2 = false) : t₁.row? m.1.1.name = none := by
          have hne : m.1.1.name ≠ f.1.name := fun h => hnames.1 (List.mem_map.mpr ⟨m, hm, h⟩)
          exact (hsynced.row?_other hvalid hne).trans (habsent.2 m hm hfalse)
        obtain ⟨t', ht', hspared⟩ := ih ht₁ (hsynced.valid hvalid) habsent₁ hnames.2
        refine ⟨t', ht', fun name hname => (hspared name hname.2).trans ?_⟩
        exact filter_sameOthers (hsynced.sameOthers_of_absent hvalid (habsent.1 rfl))
          (hname.1 rfl).symm

end ProviderCatalog.Sync

namespace ProviderCatalog.Sync

open ProviderCatalog.Configuration (RepositorySource)
open Remote (Request Session)
open Store (Tables)

variable {p : Plan} {remote : Remote} {σ τ : State} {t : Tables} {l l' : Ledger} {g : Progress}
  {store store' : Store} {name : Text}

/-! ### Looking up -/

/-- The requests that were sent once a run has looked up its repositories, with those sent before:
one for the document of each repository, behind its redirections. -/
def Plan.lookUpRequests (p : Plan) (remote : Remote) (sent : List Request) : List Request :=
  (p.repositories.map (p.client.repositoryUrl ·.fullName)).foldl (p.client.sentAfter remote) sent

private theorem repositoryUrl_injective {c : Remote.Client} {fullName fullName' : Text}
    (h : c.repositoryUrl fullName = c.repositoryUrl fullName') : fullName = fullName' :=
  List.append_cancel_left h

/-- Repositories with different full names that are reported are looked up while there is a token
for each of them. Nothing else is asked meanwhile. -/
theorem lookUp_reported (p : Plan) (remote : Remote) {before : List Request} {found : List Found}
    (hreports : ∀ f ∈ found, p.client.Reports remote before f.2.fullName f.1)
    (heligible : ∀ f ∈ found, ineligibility? f.1 = none)
    (hdistinct : (found.map (·.2.fullName)).Nodup)
    (hbefore : before <+: σ.session.sent)
    (hcache : ∀ f ∈ found, σ.session.cache.entries.lookup
      (p.client.repositoryUrl f.2.fullName) = none)
    (htokens : found.length ≤ σ.session.left) :
    ∃ session, (lookUp p remote (found.map (·.2))).run.run σ = (.ok found, { σ with session }) ∧
      session.sent = (found.map (p.client.repositoryUrl ·.2.fullName)).foldl
        (p.client.sentAfter remote) σ.session.sent := by
  induction found generalizing σ with
  | nil => exact ⟨σ.session, rfl, rfl⟩
  | cons f found ih =>
    rw [List.forall_mem_cons] at hreports heligible hcache
    rw [List.map_cons, List.nodup_cons] at hdistinct
    rw [List.length_cons, Int.natCast_add, Int.natCast_one] at htokens
    obtain ⟨x, hx, hsent, hleft, hothers⟩ := hreports.1.run_summary hbefore hcache.1 (by omega)
    have hone : (lookUpOne p remote f.2).run.run σ = (.ok f, { σ with session := x }) := by
      have hasking : (asking (p.client.summary remote f.2.fullName)).run σ =
          (.ok f.1, { σ with session := x }) := by
        rw [run_asking, hx]
      rw [lookUpOne, run_bind, run_lift, hasking]
      dsimp only
      rw [heligible.1]
      rfl
    have hbefore' : before <+: x.sent :=
      hbefore.trans (hsent ▸ p.client.prefix_sentAfter remote _ _)
    have hcache' (f') (hf' : f' ∈ found) :
        x.cache.entries.lookup (p.client.repositoryUrl f'.2.fullName) = none := by
      refine (hothers _ fun h => ?_).trans (hcache.2 f' hf')
      exact hdistinct.1 (List.mem_map.mpr ⟨f', hf', repositoryUrl_injective h⟩)
    obtain ⟨y, hy, hsent'⟩ := ih (σ := { σ with session := x }) hreports.2 heligible.2 hdistinct.2
      hbefore' hcache' (by dsimp only; omega)
    refine ⟨y, ?_, ?_⟩
    · rw [List.map_cons, lookUp, run_bind_ok hone, run_bind_ok hy, run_pure]
    · rw [List.map_cons, List.foldl_cons, ← hsent]
      exact hsent'

/-! ### Marking -/

/-- The marks of repositories by the records of the tables. -/
def marksBy (t : Tables) (found : List Found) : List (Found × Bool) :=
  found.map fun f => (f, isUpToDate f.1 ((t.row? f.1.name).map Store.readRecord))

private theorem run_markUpToDate {found : List Found}
    (h : ∀ f ∈ found, σ.store.repository? f.1.name =
      .ok ((t.row? f.1.name).map Store.readRecord)) :
    (markUpToDate found).run.run σ = (.ok (marksBy t found), σ) := by
  induction found with
  | nil => rfl
  | cons f found ih =>
    rw [List.forall_mem_cons] at h
    rw [markUpToDate, run_bind, run_lift, run_reading, h.1]
    dsimp only
    rw [run_bind_ok (ih h.2)]
    rfl

/-! ### The first run -/

/-- A store as an updating run without errors leaves it: the repositories are settled, and their
records can be read. -/
structure Left (l : Ledger) (t : Tables) (store : Store) : Prop where
  tables : store.tables = some t
  valid : t.Valid
  settled : ∀ e ∈ l, Settled t e
  readable : ∀ e ∈ l, store.repository? e.1.1.name =
    .ok ((t.row? e.1.1.name).map Store.readRecord)

/-- An updating run without errors finds its repositories, none of which is kept from being synced,
and leaves them settled. -/
theorem Plan.updates_left (ht : σ.store.tables = some t) (hvalid : t.Valid)
    (hledger : (p.ledger remote .updates).run.run σ = (.ok l, τ))
    (herrors : ∀ e ∈ l, e.2.error? = none) (hnames : (l.map (·.1.1.name)).Nodup) :
    l.map (·.1.2) = p.repositories ∧ (∀ e ∈ l, ineligibility? e.1.1 = none) ∧
      ∃ t', Left l t' τ.store := by
  obtain ⟨horder, t', ht', hvalid', hsettled⟩ :=
    Plan.ledger_settled ht hvalid hledger herrors hnames
  obtain ⟨marks, υ, hopening, hsettle⟩ := Plan.exists_marks hledger
  obtain ⟨haside, hopened⟩ := (opening_opens p remote .updates).of_run trivial hopening
  replace hopened := hopened marks rfl
  have hlines := settle_lines p remote marks υ
  rw [hsettle] at hlines
  have hmem (e) (he : e ∈ l) : (e.1, e.2.isSkipped) ∈ marks :=
    hlines ▸ List.mem_map_of_mem (f := fun e : Found × Account => (e.1, e.2.isSkipped)) he
  have hlisted := congrArg (List.map (·.1.2)) hlines
  rw [List.map_map, hopened.listed] at hlisted
  refine ⟨hlisted, fun e he => hopened.eligible _ (hmem e he), t', ht', hvalid', hsettled,
    fun e he => ?_⟩
  obtain ⟨stored, hstored, -⟩ := hopened.updates rfl _ (hmem e he)
  exact reads_again hstored (horder.trans (congrArg Store.outOfOrder haside.store.symm)) ht'

/-! ### The second run -/

/-- An updating run in a session, after one with a ledger that left a state. Each repository whose
archive was available, or that was up to date, is skipped: it is counted so and not listed, and no
row of it is touched. The run asks for the document of each repository, and then does no more than
sync the repositories that it does not skip, none of which had an archive. -/
structure Repeats (p : Plan) (remote : Remote) (session : Session) (l : Ledger) (τ : State)
    (l' : Ledger) (g' : Progress) (τ' : State) : Prop where
  run : (p.run remote .updates).run.run { τ with session } = (.ok g', τ')
  ledger : (p.ledger remote .updates).run.run { τ with session } = (.ok l', τ')
  accounts : Accounts p .updates l' g'
  found : l'.map (·.1) = l.map (·.1)
  skips : ∀ e ∈ l, e.2.isUnavailable = false → (e.1, .skipped) ∈ l'
  unlisted : ∀ e ∈ l, e.2.isUnavailable = false → e.1.1.name ∉ g'.updated
  extents : ∀ e ∈ l, e.2.isUnavailable = false →
    τ'.store.extents.filter (·.record.value.name == e.1.1.name) =
      τ.store.extents.filter (·.record.value.name == e.1.1.name)
  synced : ∀ e' ∈ l', e'.2.isSkipped = false → ∃ e ∈ l, e.1 = e'.1 ∧ e.2.isUnavailable = true
  requests : ∃ session', session'.sent = p.lookUpRequests remote session.sent ∧
    ∀ g, ((syncAll p remote true g ((l'.filter (!·.2.isSkipped)).map (·.1))).run
      { τ with session := session' }).2 = τ'

/-- The opening of a run over a store that a run without errors left. -/
theorem Left.opening {session : Session} (h : Left l t τ.store)
    (hlisted : l.map (·.1.2) = p.repositories) (heligible : ∀ e ∈ l, ineligibility? e.1.1 = none)
    (hnames : (l.map (·.1.1.name)).Nodup)
    (hreports : ∀ e ∈ l, p.client.Reports remote session.sent e.1.2.fullName e.1.1)
    (htokens : p.repositories.length ≤ session.left) :
    ∃ session', (p.opening remote .updates).run.run { τ with session } =
        (.ok (marksBy t (l.map (·.1))), { τ with session := session' }) ∧
      session'.sent = p.lookUpRequests remote session.sent := by
  -- a full name is reported with one summary only, so different names have different full names
  have hdistinct : ((l.map (·.1)).map (·.2.fullName)).Nodup := by
    rw [List.map_map]
    refine List.pairwise_map.mpr ((List.pairwise_map.mp hnames).imp_of_mem
      @fun e e' he he' hne hsame => ?_)
    have hreported := hreports e he
    rw [show e.1.2.fullName = e'.1.2.fullName from hsame] at hreported
    exact hne (congrArg (·.name) (hreported.unique (hreports e' he')))
  obtain ⟨x, hx, hsent⟩ := lookUp_reported p remote
    (σ := { τ with session := { session with cache := session.cache.clear } })
    (List.forall_mem_map.mpr hreports) (List.forall_mem_map.mpr heligible) hdistinct
    List.prefix_rfl (fun _ _ => rfl) (by simpa [← hlisted, Session.left] using htokens)
  have hfound : (l.map (·.1)).map (·.2) = p.repositories := by
    rw [← hlisted, List.map_map]
    rfl
  refine ⟨x, ?_, ?_⟩
  · rw [Plan.opening, run_bind, run_modify]
    dsimp only
    rw [← hfound, run_bind_ok hx]
    exact run_markUpToDate (List.forall_mem_map.mpr h.readable)
  · rw [hsent, Plan.lookUpRequests, ← hfound]
    simp only [List.map_map]
    rfl

/-- A repository whose archive was available is marked. -/
theorem Left.marked (h : Left l t store) {e : Found × Account} (he : e ∈ l)
    (havailable : e.2.isUnavailable = false) : (e.1, true) ∈ marksBy t (l.map (·.1)) := by
  rcases h.settled e he with htime | ⟨-, hunavailable⟩
  · exact List.mem_map.mpr ⟨e.1, List.mem_map_of_mem he,
      congrArg (e.1, ·) (isUpToDate_readRecord.mpr htime)⟩
  · exact nomatch havailable.symm.trans hunavailable

/-- A repository without a mark has no record, and its archive was not available. -/
theorem Left.unmarked (h : Left l t store) {m : Found × Bool}
    (hm : m ∈ marksBy t (l.map (·.1))) (hmark : m.2 = false) :
    t.row? m.1.1.name = none ∧ ∃ e ∈ l, e.1 = m.1 ∧ e.2.isUnavailable = true := by
  obtain ⟨f, hf, rfl⟩ := List.mem_map.mp hm
  obtain ⟨e, he, rfl⟩ := List.mem_map.mp hf
  rcases h.settled e he with htime | ⟨hgone, hunavailable⟩
  · exact nomatch hmark.symm.trans (isUpToDate_readRecord.mpr htime)
  · exact ⟨hgone, e, he, rfl, hunavailable⟩

/-- No repository without a mark has the name of one whose archive was available. -/
theorem Left.unmarked_name (h : Left l t store) (hnames : (l.map (·.1.1.name)).Nodup)
    {e : Found × Account} (he : e ∈ l) (havailable : e.2.isUnavailable = false)
    {m : Found × Bool} (hm : m ∈ marksBy t (l.map (·.1))) (hmark : m.2 = false) :
    m.1.1.name ≠ e.1.1.name := by
  obtain ⟨-, e', he', hfound, hunavailable⟩ := h.unmarked hm hmark
  intro hname
  have hsame : e = e' := List.inj_on_of_nodup_map hnames he he' (hfound ▸ hname.symm)
  rw [hsame, hunavailable] at havailable
  exact nomatch havailable

/-- A ledger with these marks skips the repositories whose archive was available. -/
theorem Left.skips (h : Left l t store)
    (hlines : l'.map (fun e => (e.1, e.2.isSkipped)) = marksBy t (l.map (·.1)))
    {e : Found × Account} (he : e ∈ l) (havailable : e.2.isUnavailable = false) :
    (e.1, .skipped) ∈ l' := by
  obtain ⟨⟨f, account⟩, hmem, hline⟩ := List.mem_map.mp (hlines ▸ h.marked he havailable)
  obtain ⟨rfl, hskipped⟩ := Prod.mk.inj hline
  cases account with
  | skipped => exact hmem
  | synced => exact nomatch hskipped

/-- The repositories without a mark are those that a run does not skip. -/
private theorem unmarked_lines (l : Ledger) :
    unmarked (l.map fun e => (e.1, e.2.isSkipped)) =
      (l.filter (!·.2.isSkipped)).map (·.1) := by
  induction l with
  | nil => rfl
  | cons e l ih =>
    obtain ⟨f, account⟩ := e
    cases account with
    | skipped => exact ih
    | synced => exact congrArg (f :: ·) ih

/-- A repository that is skipped is not listed. -/
private theorem unlisted (h : Accounts p .updates l g) (hnames : (l.map (·.1.1.name)).Nodup)
    {f : Found} (hskipped : (f, .skipped) ∈ l) : f.1.name ∉ g.updated := by
  rw [h.updated, if_pos rfl]
  intro hlisted
  obtain ⟨e, he, hname⟩ := List.mem_map.mp hlisted
  obtain ⟨hmem, hupdated⟩ := List.mem_filter.mp he
  cases List.inj_on_of_nodup_map hnames hmem hskipped hname
  cases hupdated

/-- The syncs of the repositories without a mark spare what belongs to one whose archive was
available. -/
theorem Left.spares (h : Left l t σ.store) (p : Plan) (remote : Remote)
    (hnames : (l.map (·.1.1.name)).Nodup) {e : Found × Account} (he : e ∈ l)
    (havailable : e.2.isUnavailable = false) :
    ((settle p remote (marksBy t (l.map (·.1)))).run σ).2.store.extents.filter
        (·.record.value.name == e.1.1.name) =
      σ.store.extents.filter (·.record.value.name == e.1.1.name) := by
  have hmarks : ((marksBy t (l.map (·.1))).map (·.1.1.name)).Nodup := by
    rw [marksBy, List.map_map, List.map_map]
    exact hnames
  obtain ⟨u, hu, hspared⟩ := settle_spares p remote h.tables h.valid
    (fun m hm hmark => (h.unmarked hm hmark).1) hmarks
  simp only [Store.extents, hu, h.tables, Option.map_some, Option.getD_some]
  exact hspared e.1.1.name fun m hm => h.unmarked_name hnames he havailable hm

/-- An updating run over a store that one without errors left repeats that. -/
theorem Left.repeats {session : Session} (h : Left l t τ.store)
    (hlisted : l.map (·.1.2) = p.repositories) (heligible : ∀ e ∈ l, ineligibility? e.1.1 = none)
    (hnames : (l.map (·.1.1.name)).Nodup)
    (hreports : ∀ e ∈ l, p.client.Reports remote session.sent e.1.2.fullName e.1.1)
    (htokens : p.repositories.length ≤ session.left) :
    ∃ l' g' τ', Repeats p remote session l τ l' g' τ' := by
  obtain ⟨session', hopening, hsent⟩ := h.opening hlisted heligible hnames hreports htokens
  -- what the run does after its opening
  rcases hrest : (settle p remote (marksBy t (l.map (·.1)))).run { τ with session := session' }
    with ⟨l', τ'⟩
  have hledger : (p.ledger remote .updates).run.run { τ with session } = (.ok l', τ') := by
    rw [Plan.ledger, run_bind_ok hopening, run_lift, hrest]
  have haccounts := p.ledger_accounts remote hledger
  have hlines : l'.map (fun e => (e.1, e.2.isSkipped)) = marksBy t (l.map (·.1)) := by
    have hlines := settle_lines p remote (marksBy t (l.map (·.1))) { τ with session := session' }
    rwa [hrest] at hlines
  have hfound : l'.map (·.1) = l.map (·.1) := by
    have hfirst := congrArg (List.map (·.1)) hlines
    simpa only [marksBy, List.map_map, Function.comp_def, List.map_id'] using hfirst
  have hnames' : (l'.map (·.1.1.name)).Nodup := by
    have hsame := congrArg (List.map (·.1.name)) hfound
    rw [List.map_map, List.map_map] at hsame
    exact hsame ▸ hnames
  refine ⟨l', _, τ', Plan.run_of_ledger hledger, hledger, haccounts, hfound,
    fun e he havailable => h.skips hlines he havailable,
    fun e he havailable => unlisted haccounts hnames' (h.skips hlines he havailable),
    fun e he havailable => ?_, fun e' he' hsynced => ?_, session', hsent, fun g => ?_⟩
  · have hspared := Left.spares (σ := { τ with session := session' }) h p remote hnames he havailable
    rwa [hrest] at hspared
  · have hline := List.mem_map_of_mem (f := fun e : Found × Account => (e.1, e.2.isSkipped)) he'
    rw [hlines] at hline
    exact (h.unmarked hline hsynced).2
  · rw [← unmarked_lines, hlines, run_syncAll, hrest]

/-! ### Both runs -/

/-- If an updating run of repositories with different names gives no errors, the next one repeats
it: it syncs no repository but those whose archive was not available in the first run. The metadata
of the repositories must be reported as before, and there must be a token for each of them. -/
theorem Plan.updates_repeat {remote' : Remote} {session : Session}
    (htables : ∃ t, σ.store.tables = some t ∧ t.Valid)
    (hrun : (p.run remote .updates).run.run σ = (.ok g, τ))
    (hledger : (p.ledger remote .updates).run.run σ = (.ok l, τ)) (herrors : g.errors = [])
    (hnames : (l.map (·.1.1.name)).Nodup)
    (hreports : ∀ e ∈ l, p.client.Reports remote' session.sent e.1.2.fullName e.1.1)
    (htokens : p.repositories.length ≤ session.left) :
    ∃ l' g' τ', Repeats p remote' session l τ l' g' τ' := by
  obtain ⟨t, ht, hvalid⟩ := htables
  cases hrun.symm.trans (Plan.run_of_ledger hledger)
  have haccounts := p.ledger_accounts remote hledger
  have hnone : ∀ e ∈ l, e.2.error? = none :=
    List.filterMap_eq_nil_iff.mp (haccounts.errors.symm.trans herrors)
  obtain ⟨hlisted, heligible, u, hleft⟩ := Plan.updates_left ht hvalid hledger hnone hnames
  exact hleft.repeats hlisted heligible hnames hreports htokens

/-- A plan of two repositories. -/
def twoPlan : Plan :=
  ⟨.make none none, [⟨"a/x", none, true⟩, ⟨"a/y", none, true⟩], 1, "CHANGELOG.md", 1, 1, []⟩

/-- The document of a repository with a name. -/
def documentOf (name : String) : Bytes :=
  ("\x7b\"name\":\"" ++ name ++ "\",\"full_name\":\"a/" ++ name ++ "\",\"size\":1\x7d").toList.map
    fun c => UInt8.ofNat c.toNat

/-- A remote side with two repositories, of which only the first one has an archive. -/
def twoThere : Remote := fun _ q => .response <|
  if q.url = "https://api.github.com/repos/a/x" then ⟨200, none, documentOf "x"⟩
  else if q.url = "https://api.github.com/repos/a/y" then ⟨200, none, documentOf "y"⟩
  else if q.url = "https://api.github.com/repos/a/x/tarball" then ⟨200, none, archiveOfA⟩
  else ⟨404, none, []⟩

set_option maxRecDepth 100000 in
private theorem twoThere_settled :
    ((twoPlan.ledger twoThere .updates).run.run (openState .ready)).1.toOption.any (fun l =>
      decide (l.map (fun e => (e.1.1.name, e.2.isUnavailable)) =
          [(("x" : Text), false), (("y" : Text), true)] ∧
        (Progress.ofLedger true l).errors = [] ∧
        ∀ e ∈ l, twoPlan.client.reported? twoThere e.1.2.fullName = some e.1.1)) = true := by
  decide +kernel

/-- Of two repositories the first one is skipped by the second run, and the other one, which has no
archive, is synced again. -/
theorem Plan.updates_repeat_of_two :
    ∃ l g τ, (twoPlan.run twoThere .updates).run.run (openState .ready) = (.ok g, τ) ∧
      (twoPlan.ledger twoThere .updates).run.run (openState .ready) = (.ok l, τ) ∧
      g.errors = [] ∧ l.map (fun e => (e.1.1.name, e.2.isUnavailable)) =
        [(("x" : Text), false), (("y" : Text), true)] ∧
      ∃ l' g' τ', Repeats twoPlan twoThere (openState .ready).session l τ l' g' τ' := by
  have hsettled := twoThere_settled
  rcases hledger : (twoPlan.ledger twoThere .updates).run.run (openState .ready) with ⟨f | l, τ⟩
  · rw [hledger] at hsettled
    exact nomatch hsettled
  · rw [hledger] at hsettled
    obtain ⟨hlines, herrors, hreported⟩ := of_decide_eq_true hsettled
    have hrun := Plan.run_of_ledger hledger
    have hnames : (l.map (·.1.1.name)).Nodup := by
      have hfirst := congrArg (List.map (·.1)) hlines
      rw [List.map_map] at hfirst
      exact hfirst ▸ (by decide)
    exact ⟨l, _, τ, hrun, rfl, herrors, hlines, Plan.updates_repeat ⟨_, rfl, .empty⟩ hrun hledger
      herrors hnames (fun e he => .of_steady (fun _ _ _ => rfl) (hreported e he))
      (by decide +kernel)⟩

end ProviderCatalog.Sync
