import ProviderCatalog.Proofs.Store.Upserts
import ProviderCatalog.Proofs.Sync.Fetching
import ProviderCatalog.Proofs.Sync.Resync

/-!
# A repository without an archive

A sync that learns that its repository has no archive removes the record that it has just stored,
and with it every row that belongs to the repository: those of earlier syncs and those of this one.
No row is left that belongs to no record, and the extents of the other names are as they were.

## Main definitions

* `Extent.rows`: the rows of an extent by table.

## Main results

* `Tables.Valid.mem_extent`: in valid tables every row belongs to a record.
* `syncRepository_removes_unavailable`: what is left after a sync without an archive.
-/

namespace ProviderCatalog

namespace Store

/-- The rows of an extent that stand in a table. -/
def Extent.rows (e : Extent) : (k : Kind) → List (Row k.Value)
  | .repositories => [e.record]
  | .files => e.files
  | .services => e.services
  | .resources => e.resources
  | .attributes => e.attributes
  | .sources => e.sources
  | .releases => e.releases
  | .entries => e.entries

namespace Tables

variable {t t' : Tables} {id : Int}

/-- A row that belongs to a row that belongs to a record is in the extent of the record. -/
private theorem exists_owner {α β : Type} {owners : Table (Part α)}
    (howners : owners.OwnedBy Part.owner t.repositories) {table : Table (Part β)}
    (htable : table.OwnedBy Part.owner owners) {x : Row (Part β)} (hx : x ∈ table.rows) :
    ∃ r ∈ t.repositories.rows, x ∈ table.rows.filter (owners.owns r.id ·.value.owner) := by
  obtain ⟨y, hy, hyid⟩ := Table.has_iff.mp (htable x hx)
  obtain ⟨r, hr, hid⟩ := Table.has_iff.mp (howners y hy)
  exact ⟨r, hr, List.mem_filter.mpr ⟨hx, Table.owns_iff.mpr ⟨y, hy, hyid, hid.symm⟩⟩⟩

/-- In valid tables every row is in the extent of a record, directly or through its owner. -/
theorem Valid.mem_extent (h : t.Valid) (k : Kind) {x : Row k.Value} (hx : x ∈ (t.table k).rows) :
    ∃ e ∈ t.extents, x ∈ e.rows k := by
  suffices ∃ r ∈ t.repositories.rows, x ∈ (t.extentOf r).rows k by
    obtain ⟨r, hr, hmem⟩ := this
    exact ⟨t.extentOf r, List.mem_map_of_mem hr, hmem⟩
  have hdirect {β : Type} {owner : β → Int} {table : Table β}
      (howned : table.OwnedBy owner t.repositories) {y : Row β} (hy : y ∈ table.rows) :
      ∃ r ∈ t.repositories.rows, y ∈ table.rows.filter (owner ·.value == r.id) := by
    obtain ⟨r, hr, hid⟩ := Table.has_iff.mp (howned y hy)
    exact ⟨r, hr, List.mem_filter.mpr ⟨hy, beq_iff_eq.mpr hid.symm⟩⟩
  cases k with
  | repositories => exact ⟨x, hx, List.mem_singleton.mpr rfl⟩
  | files => exact hdirect h.filesOwned hx
  | services => exact hdirect h.servicesOwned hx
  | resources => exact hdirect h.resourcesOwned hx
  | attributes => exact exists_owner h.resourcesOwned h.attributesOwned hx
  | sources => exact exists_owner h.resourcesOwned h.sourcesOwned hx
  | releases => exact hdirect h.releasesOwned hx
  | entries => exact exists_owner h.releasesOwned h.entriesOwned hx

/-- Without a record of a name, all extents are those of other names. -/
theorem extents_of_row?_eq_none {name : Text} (h : t.row? name = none) :
    t.extents.filter (·.record.value.name != name) = t.extents := by
  refine List.filter_eq_self.mpr fun e he => ?_
  obtain ⟨x, hx, rfl⟩ := List.mem_map.mp he
  exact bne_iff_ne.mpr fun hname => List.find?_eq_none.mp h x hx (beq_iff_eq.mpr hname)

/-- The number of a record that is stored fits into its column if the next one does. -/
theorem Valid.putRepository_fits (h : t.Valid) {r : RepositoryRecord}
    (hroom : (Param.number t.repositories.next).fault? = none)
    (hput : t.putRepository r = .ok (t', id)) : (Param.number id).fault? = none := by
  have hnumber := (row?_putRepository hput).2
  cases hrow : t.row? r.name with
  | none =>
    rw [hrow] at hnumber
    exact hnumber ▸ hroom
  | some x =>
    rw [hrow] at hnumber
    obtain ⟨hmem, -⟩ := h.row?_eq_some.mp hrow
    have hpositive := h.repositories.positive x hmem
    have hbounded := h.repositories.bounded x hmem
    rw [Param.fits_iff, Table.next] at hroom
    rw [Option.elim_some] at hnumber
    rw [Param.fits_iff]
    omega

end Tables

end Store

namespace Sync

open ProviderCatalog.Configuration (RepositorySource)
open Remote (Response)
open Store (Kind Param Tables)

variable {p : Plan} {remote : Remote} {s : Remote.Summary} {r : RepositorySource} {σ : State}
  {t : Tables} {response : Response} {id : Int}

/-- A record is removed if the store lets it. -/
private theorem dropRecord_ok (ht : σ.store.tables = some t)
    (hdelete : σ.store.outOfOrder.contains .deleteRepository = false)
    (hid : (Param.number id).fault? = none) : ((dropRecord s id).run.run σ).1 = .ok () := by
  have hremoved : t.deleteRepository id = .ok (t.eraseRecords (·.id == id)) := by
    rw [Tables.deleteRepository, Param.bind_of_fits hid]
    rfl
  have hrun : σ.store.deleteRepository id = (t.deleteRepository id).map fun t' =>
      { σ.store with tables := some t' } := Store.update_inOrder hdelete ht
  rw [hremoved] at hrun
  rw [dropRecord, run_bind, run_orWarn, run_updating, hrun]
  rfl

/-- The steps of a sync that gets to ask for the archive, and learns that there is none, succeed. -/
private theorem syncSteps_unavailable (ht : σ.store.tables = some t) (hvalid : t.Valid)
    (hdelete : σ.store.outOfOrder.contains .deleteRepository = false)
    (hroom : (Param.number t.repositories.next).fault? = none)
    (hfetches : Fetches p remote s σ response)
    (hstatus : response.status ∈ Remote.Client.unavailableStatuses) :
    ((syncSteps p remote s r).run.run σ).1 = .ok false := by
  obtain ⟨n, τ, hrecord, hrun⟩ := hfetches.run_syncSteps r
  rcases storeRecord_run s σ with ⟨f, hfail, -⟩ | ⟨t₀, u, id, ht₀, hput, x, hx, hclear⟩
  · cases hfail.symm.trans hrecord
  · cases ht.symm.trans ht₀
    obtain ⟨hcleared, hid⟩ := hx.of_run trivial (hclear.symm.trans hrecord)
    obtain rfl : n = id := hid n rfl
    obtain ⟨v, hv, -⟩ := hcleared.exists rfl
    -- the record stays under its number until the answer is there
    obtain ⟨hE, -⟩ := Leads.softly ("Failed to fetch README for " ++ s.name)
      (storeReadme_works p remote) τ (storeRecord_numbered hrecord)
    obtain ⟨w, hw, -⟩ := hE.exists hv
    have horder := hE.store.outOfOrder.trans hcleared.store.outOfOrder
    rw [run_lift] at hw horder
    dsimp only at hw horder
    rw [← afterArchive_store] at hw horder
    have hdrop := dropRecord_ok (s := s) hw (horder ▸ hdelete)
      (hvalid.putRepository_fits hroom hput)
    rw [hrun, Response.archive_unavailable hstatus, withArchive, run_bind]
    generalize (dropRecord s n).run.run (afterArchive p remote s τ) = dropped at hdrop
    obtain ⟨_, υ⟩ := dropped
    cases hdrop
    rfl

/-- A sync that finds no archive leaves no record, unless the store refuses to remove it. -/
theorem Synced.row?_eq_none {order : List Store.Operation} {t' : Tables}
    (h : Synced s order t (.ok false) t') (ht : Proper t)
    (hdelete : order.contains .deleteRepository = false) : t'.row? s.name = none := by
  cases h with
  | recorded _ _ hresult => exact absurd rfl hresult
  | dropped hput hworks hremoved =>
    have hu : Proper _ := ⟨ht.valid.putRepository hput, ht.linked.putRepository hput⟩
    exact (hworks.proper hu).valid.row?_deleteRepository hremoved
      (hworks.numbered (Tables.numbered_putRepository hput))
  | kept _ _ horder => cases hdelete.symm.trans horder

/-- If a sync gets to ask for the archive and the response says that there is none, then the sync
succeeds and tells so, and nothing of the repository is left: the extents are those of the records
with other names, as they were, and every row of every table is in one of them. The deletion must
not be refused by a store out of order, and the next number of a record has 64 bits. -/
theorem syncRepository_removes_unavailable (p : Plan) (remote : Remote) (s : Remote.Summary)
    (r : RepositorySource) {σ : State} {response : Response} (h : Reached σ.store)
    (hfree : σ.locks.isHeld s.fullName = false)
    (hdelete : σ.store.outOfOrder.contains .deleteRepository = false)
    (hroom : On (fun t => (Param.number t.repositories.next).fault? = none) σ)
    (hfetches : Fetches p remote s σ response)
    (hstatus : response.status ∈ Remote.Client.unavailableStatuses) :
    let run := (syncRepository p remote s r).run σ
    run.1 = ⟨s.name, true, none, true⟩ ∧
      run.2.store.extents = σ.store.extents.filter (·.record.value.name != s.name) ∧
      ∃ t', run.2.store.tables = some t' ∧
        ∀ (k : Kind), ∀ x ∈ (t'.table k).rows, ∃ e ∈ run.2.store.extents, x ∈ e.rows k := by
  intro run
  obtain ⟨t, ht, hproper⟩ := h.tables
  have hsteps := syncSteps_unavailable (r := r)
    (σ := { σ with locks := ⟨s.fullName :: σ.locks.held⟩ }) ht hproper.valid hdelete
    (hroom t ht) (hfetches.holding _) hstatus
  obtain ⟨-, -, t', ht', hsynced⟩ := syncSteps_synced p remote s r
    { σ with locks := ⟨s.fullName :: σ.locks.held⟩ } ht
  have hrun : run = _ := syncRepository_free p remote r hfree
  have hresult : run.1 = told s (.ok false) := by rw [hrun, ← hsteps]
  have hstore : run.2.store.tables = some t' := by rw [hrun]; exact ht'
  rw [hsteps] at hsynced
  have hgone := hsynced.row?_eq_none hproper hdelete
  have hextents : run.2.store.extents = t'.extents := by rw [Store.extents, hstore]; rfl
  refine ⟨hresult, ?_, t', hstore, fun k x hx => ?_⟩
  · rw [hextents, ← Tables.extents_of_row?_eq_none hgone, hsynced.sameOthers hproper,
      Store.extents, ht]
    rfl
  · rw [hextents]
    exact (hsynced.proper hproper).valid.mem_extent k hx

/-! ### A repository whose archive is gone -/

/-- The store after two repositories were synced, of which only the first one had an archive. -/
def sharedStore : Store :=
  (afterSyncInVain (ownedSummary "a" "y") { closedState with store := formerStore }).store

private theorem reached_sharedStore : Reached sharedStore :=
  .synced (σ := { closedState with store := formerStore })
    (.synced (σ := openState .ready) .ready _ _ _ _) _ _ _ _

/-- A remote side that has nothing. -/
def nothingThere : Remote := fun _ _ => .response ⟨404, none, []⟩

set_option maxRecDepth 100000 in
private theorem sharedStore_fetches :
    Fetches idlePlan nothingThere (ownedSummary "a" "x") (openState sharedStore)
      ⟨404, none, []⟩ := by
  refine ⟨⟨1, eq_ok_of_toOption ?_⟩, ?_, ?_⟩ <;> decide +kernel

set_option maxRecDepth 100000 in
private theorem sharedStore_open :
    sharedStore.extents.map (fun e => (e.record.value.name, e.files.length)) =
        [(("x" : Text), 1), (("y" : Text), 0)] ∧
      (openState sharedStore).locks.isHeld (ownedSummary "a" "x").fullName = false ∧
      (openState sharedStore).store.outOfOrder.contains .deleteRepository = false ∧
      On (fun t => (Param.number t.repositories.next).fault? = none) (openState sharedStore) := by
  decide +kernel

/-- When the archive of a repository is gone, its file goes with its record, and the other record
stays. -/
theorem syncRepository_removes_unavailable_of_x :
    let run := (syncRepository idlePlan nothingThere (ownedSummary "a" "x")
      ⟨"a/x", none, true⟩).run (openState sharedStore)
    sharedStore.extents.map (fun e => (e.record.value.name, e.files.length)) =
        [(("x" : Text), 1), (("y" : Text), 0)] ∧
      run.1 = ⟨"x", true, none, true⟩ ∧
      run.2.store.extents = sharedStore.extents.filter (·.record.value.name != ("x" : Text)) ∧
      ∃ t', run.2.store.tables = some t' ∧
        ∀ (k : Kind), ∀ x ∈ (t'.table k).rows, ∃ e ∈ run.2.store.extents, x ∈ e.rows k := by
  obtain ⟨hextents, hfree, hdelete, hroom⟩ := sharedStore_open
  exact ⟨hextents, syncRepository_removes_unavailable idlePlan nothingThere
    (ownedSummary "a" "x") ⟨"a/x", none, true⟩ (σ := openState sharedStore)
    reached_sharedStore hfree hdelete hroom sharedStore_fetches (by decide)⟩

end Sync

end ProviderCatalog
