import ProviderCatalog.Proofs.Store.Hosted
import ProviderCatalog.Proofs.Store.Extent
import ProviderCatalog.Proofs.Sync.Effect

/-!
# Repositories are isolated from each other

The stores that syncs lead to have valid and linked tables. So everything that the sync of a
repository does stays within the extent of the record with its name, and the extents of all other
records are the same afterwards. Records are told apart by the names of repositories without their
owners: two repositories with one name share a record.

## Main definitions

* `Reached`: the stores that syncs lead to.
* `Store.extents`: the extents in a store.

## Main results

* `Synced.sameOthers`, `Synced.sameOthers_of_absent`: what a sync does to the other extents.
* `Reached.tables`: the tables of such a store are valid and linked.
* `syncRepository_keeps_other_extents`: a sync keeps the extents of the other names.
* `syncRepository_shares_names`: it need not keep those of the other full names.
-/

namespace ProviderCatalog

/-- The extents in a store. -/
def Store.extents (s : Store) : List Store.Extent := (s.tables.map (·.extents)).getD []

namespace Sync

open ProviderCatalog.Configuration (RepositorySource)
open Store (Operation Tables)
open Store.Tables (SameOthers)

/-- The stores that syncs of repositories lead to from one without rows, whatever operations are out
of order meanwhile. -/
inductive Reached : Store → Prop
  | ready : Reached .ready
  | outOfOrder {s} (h : Reached s) (operations : List Operation) :
      Reached { s with outOfOrder := operations }
  | synced {σ : State} (h : Reached σ.store) (p : Plan) (remote : Remote) (s : Remote.Summary)
      (r : RepositorySource) : Reached ((syncRepository p remote s r).run σ).2.store

/-- Tables that are valid, with links within repositories only. -/
structure Proper (t : Tables) : Prop where
  valid : t.Valid
  linked : t.Linked

variable {s : Remote.Summary} {id : Int} {order : List Operation} {t t' : Tables}
  {result : Except Failure Bool}

/-! ### What a sync keeps -/

theorem Work.valid (h : Work s id t t') (ht : t.Valid) : t'.Valid := by
  cases h with
  | clear h => exact ht.clearRepository h
  | readme h => exact ht.putRepository h
  | fill h => exact h.valid ht

theorem Works.valid (h : Works s id t t') (ht : t.Valid) : t'.Valid := by
  induction h with
  | refl => exact ht
  | tail _ h ih => exact h.valid ih

theorem Work.proper (h : Work s id t t') (ht : Proper t) : Proper t' := by
  refine ⟨h.valid ht.valid, ?_⟩
  cases h with
  | clear h => exact ht.linked.clearRepository h
  | readme h => exact ht.linked.putRepository h
  | fill h => exact h.linked ht.linked

theorem Works.proper (h : Works s id t t') (ht : Proper t) : Proper t' := by
  induction h with
  | refl => exact ht
  | tail _ h ih => exact h.proper ih

theorem Synced.valid (h : Synced s order t result t') (ht : t.Valid) : t'.Valid := by
  cases h with
  | unrecorded _ => exact ht
  | recorded hput hworks _ => exact hworks.valid (ht.putRepository hput)
  | kept hput hworks _ => exact hworks.valid (ht.putRepository hput)
  | dropped hput hworks hdelete =>
    exact (hworks.valid (ht.putRepository hput)).deleteRepository hdelete

theorem Synced.proper (h : Synced s order t result t') (ht : Proper t) : Proper t' := by
  have hrecord {u : Tables} {id : Int} (hput : t.putRepository (.ofSummary s none) = .ok (u, id)) :
      Proper u := ⟨ht.valid.putRepository hput, ht.linked.putRepository hput⟩
  refine ⟨h.valid ht.valid, ?_⟩
  cases h with
  | unrecorded _ => exact ht.linked
  | recorded hput hworks _ => exact (hworks.proper (hrecord hput)).linked
  | kept hput hworks _ => exact (hworks.proper (hrecord hput)).linked
  | dropped hput hworks hdelete =>
    have hv := hworks.proper (hrecord hput)
    exact hv.linked.deleteRepository hv.valid hdelete

theorem Work.rows (h : Work s id t t') :
    t'.repositories.rows.filter (·.value.name != s.name) =
      t.repositories.rows.filter (·.value.name != s.name) := by
  cases h with
  | clear h => rw [Tables.repositories_clearRepository h]
  | readme h => exact Tables.rows_putRepository h
  | fill h => rw [h.touched.repositories]

theorem Works.rows (h : Works s id t t') :
    t'.repositories.rows.filter (·.value.name != s.name) =
      t.repositories.rows.filter (·.value.name != s.name) := by
  induction h with
  | refl => rfl
  | tail _ h ih => exact h.rows.trans ih

/-- A sync does not touch the records with other names. -/
theorem Synced.row?_other (h : Synced s order t result t') (ht : t.Valid) {name : Text}
    (hname : name ≠ s.name) : t'.row? name = t.row? name := by
  refine Tables.row?_of_rows_eq ?_ hname
  cases h with
  | unrecorded _ => rfl
  | recorded hput hworks _ => exact hworks.rows.trans (Tables.rows_putRepository hput)
  | kept hput hworks _ => exact hworks.rows.trans (Tables.rows_putRepository hput)
  | dropped hput hworks hdelete =>
    have hv := hworks.valid (ht.putRepository hput)
    have hnumbered := hworks.numbered (Tables.numbered_putRepository hput)
    exact (hv.rows_deleteRepository hdelete hnumbered).trans
      (hworks.rows.trans (Tables.rows_putRepository hput))

/-- A repository stays secluded while it is worked on: its services are cleared, or only its own
resources are linked to them. -/
theorem Work.secluded (h : Work s id t t') (ht : t.Valid) (hsecluded : t.Secluded id) :
    t'.Secluded id := by
  cases h with
  | clear h =>
    obtain ⟨-, rfl⟩ := Tables.clearRepository_ok h
    refine .of_services fun x hx => ?_
    simpa using (List.mem_filter.mp hx).2
  | readme h =>
    obtain ⟨-, rfl, -⟩ := Tables.putRepository_ok h
    exact hsecluded
  | fill h => exact h.secluded ht hsecluded

theorem Works.secluded (h : Works s id t t') (ht : t.Valid) (hsecluded : t.Secluded id) :
    t'.Secluded id := by
  induction h with
  | refl => exact hsecluded
  | tail hbefore h ih => exact h.secluded (Works.valid hbefore ht) ih

theorem Work.sameOthers (h : Work s id t t') (ht : t.Valid) (hsecluded : t.Secluded id)
    (hnumbered : t.Numbered s.name id) : SameOthers s.name t t' := by
  cases h with
  | clear h => exact ht.sameOthers_clearRepository hsecluded hnumbered h
  | readme h => exact Tables.sameOthers_putRepository h
  | fill h => exact ht.sameOthers_fill hnumbered h

/-- All work under the number of a secluded record keeps the other extents: validity, the seclusion
and the number last from one piece of it to the next. -/
theorem Works.sameOthers (h : Works s id t t') (ht : t.Valid) (hsecluded : t.Secluded id)
    (hnumbered : t.Numbered s.name id) : SameOthers s.name t t' := by
  induction h with
  | refl => exact .refl _ _
  | tail hbefore h ih =>
    exact ih.trans (h.sameOthers (Works.valid hbefore ht) (Works.secluded hbefore ht hsecluded)
      (Works.numbered hbefore hnumbered))

/-- A sync keeps the other extents if its repository is secluded once the record is stored. -/
theorem Synced.sameOthers_of_secluded (h : Synced s order t result t') (ht : t.Valid)
    (hsecluded : ∀ u id, t.putRepository (.ofSummary s none) = .ok (u, id) → u.Secluded id) :
    SameOthers s.name t t' := by
  have hrecord {u v : Tables} {id : Int}
      (hput : t.putRepository (.ofSummary s none) = .ok (u, id)) (hworks : Works s id u v) :
      SameOthers s.name t v :=
    (Tables.sameOthers_putRepository hput).trans (hworks.sameOthers (ht.putRepository hput)
      (hsecluded u id hput) (Tables.numbered_putRepository hput))
  cases h with
  | unrecorded _ => exact .refl _ _
  | recorded hput hworks _ => exact hrecord hput hworks
  | kept hput hworks _ => exact hrecord hput hworks
  | dropped hput hworks hdelete =>
    have hu := ht.putRepository hput
    refine (hrecord hput hworks).trans ((hworks.valid hu).sameOthers_deleteRepository ?_ ?_ hdelete)
    · exact hworks.secluded hu (hsecluded _ _ hput)
    · exact hworks.numbered (Tables.numbered_putRepository hput)

theorem Synced.sameOthers (h : Synced s order t result t') (ht : Proper t) :
    SameOthers s.name t t' :=
  h.sameOthers_of_secluded ht.valid fun _ id hput =>
    .of_linked (ht.linked.putRepository hput) (ht.valid.putRepository hput) id

/-- The sync of a repository without a record keeps the other extents, whatever the links of other
repositories. -/
theorem Synced.sameOthers_of_absent (h : Synced s order t result t') (ht : t.Valid)
    (habsent : t.row? s.name = none) : SameOthers s.name t t' :=
  h.sameOthers_of_secluded ht fun _ _ hput =>
    .of_services (Tables.Bare.of_new ht habsent hput).services

/-! ### The stores that syncs lead to -/

/-- The tables of a store that syncs lead to are valid and linked. -/
theorem Reached.tables {store : Store} (h : Reached store) :
    ∃ t, store.tables = some t ∧ Proper t := by
  induction h with
  | ready => exact ⟨.empty, rfl, .empty, .empty⟩
  | outOfOrder _ _ ih => exact ih
  | @synced σ _ p remote s r ih =>
    obtain ⟨t, ht, hproper⟩ := ih
    obtain ⟨-, -, ⟨-, -, hstore⟩ | ⟨-, outcome, -, hsynced⟩⟩ := syncRepository_synced p remote r s σ
    · exact ⟨t, hstore ▸ ht, hproper⟩
    · obtain ⟨t', ht', hsynced⟩ := hsynced t ht
      exact ⟨t', ht', hsynced.proper hproper⟩

/-- The sync of a repository keeps the extents of all records with other names as they are, however
it ends. -/
theorem syncRepository_keeps_other_extents (p : Plan) (remote : Remote) (s : Remote.Summary)
    (r : RepositorySource) {σ : State} (h : Reached σ.store) :
    ((syncRepository p remote s r).run σ).2.store.extents.filter
        (·.record.value.name != s.name) =
      σ.store.extents.filter (·.record.value.name != s.name) := by
  obtain ⟨t, ht, hproper⟩ := h.tables
  obtain ⟨-, -, ⟨-, -, hstore⟩ | ⟨-, outcome, -, hsynced⟩⟩ := syncRepository_synced p remote r s σ
  · rw [hstore]
  · obtain ⟨t', ht', hsynced⟩ := hsynced t ht
    simp only [Store.extents, ht, ht', Option.map_some, Option.getD_some]
    exact hsynced.sameOthers hproper

/-! ### Repositories with one name -/

/-- The summary of a repository of an owner. -/
def ownedSummary (owner name : Text) : Remote.Summary :=
  ⟨name, owner ++ "/" ++ name, none, "2024-01-01T00:00:00Z", [], false, false, 1⟩

/-- A plan without repositories. -/
def idlePlan : Plan := ⟨.make none none, [], 1, "CHANGELOG.md", 1, 1, []⟩

/-- The state after the sync of a repository while no request is admitted. -/
def afterSyncInVain (s : Remote.Summary) (σ : State) : State :=
  ((syncRepository idlePlan (fun _ _ => .response ⟨404, none, []⟩) s ⟨s.fullName, none, true⟩).run
    σ).2

/-- No request is admitted, and nothing is stored. -/
def closedState : State := ⟨⟨.full 0 1 0, 0, .empty 1, 0, []⟩, .ready, .empty, []⟩

private theorem reached_afterSyncInVain :
    Reached (afterSyncInVain (ownedSummary "a" "x") closedState).store :=
  .synced .ready _ _ _ _

/-- A record stays while another name is synced. -/
theorem syncRepository_keeps_other_extents_of_x :
    let σ := afterSyncInVain (ownedSummary "a" "x") closedState
    Reached σ.store ∧ σ.store.extents.length = 1 ∧
      (afterSyncInVain (ownedSummary "a" "y") σ).store.extents.filter
          (·.record.value.name != (ownedSummary "a" "y").name) =
        σ.store.extents.filter (·.record.value.name != (ownedSummary "a" "y").name) :=
  ⟨reached_afterSyncInVain, by decide +kernel,
    syncRepository_keeps_other_extents _ _ _ _ reached_afterSyncInVain⟩

/-- Repositories of two owners with one name share a record: the sync of one of them takes the
record from the other. -/
theorem syncRepository_shares_names :
    ¬∀ (p : Plan) (remote : Remote) (s : Remote.Summary) (r : RepositorySource) (σ : State),
      Reached σ.store →
        ((syncRepository p remote s r).run σ).2.store.extents.filter
            (·.record.value.fullName != s.fullName) =
          σ.store.extents.filter (·.record.value.fullName != s.fullName) := by
  intro h
  have hkept := h idlePlan (fun _ _ => .response ⟨404, none, []⟩) (ownedSummary "b" "x")
    ⟨(ownedSummary "b" "x").fullName, none, true⟩ _ reached_afterSyncInVain
  revert hkept
  decide +kernel

end Sync

end ProviderCatalog
