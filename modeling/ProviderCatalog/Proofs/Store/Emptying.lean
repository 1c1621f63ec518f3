import ProviderCatalog.Proofs.Store.Filling

/-!
# Removing what belongs to a repository

Clearing a repository removes table by table what belongs to it, while deleting its record lets the
rows go whose owners go. Both leave the same rows, up to the record: all that belong to other
repositories, where a resource loses its link if the service goes that it is linked to. The tables
stay valid. A repository is found by its name, and has the number of its record. Storing a record
under its name keeps the number that the name has already; fills and clearing keep all records, and
so all numbers.

## Main definitions

* `Tables.emptied`: the tables without everything that belongs to a repository.
* `Tables.row?`, `Tables.Numbered`: the record with a name, and its number.

## Main results

* `Tables.clearRepository_eq`, `Tables.Valid.deleteRepository_eq`: the effect of a removal.
* `Tables.Valid.deleteRepository`, `Tables.Valid.clearRepository`: removals keep tables valid.
* `Tables.Linked.deleteRepository`, `Tables.Linked.clearRepository`: and links within repositories.
* `Tables.Secluded.resources_emptied`: no link is lost if the repository is secluded.
* `Tables.row?_putRepository`: the record with a name after it was stored.
* `Tables.rows_putRepository`, `Tables.Valid.rows_deleteRepository`: records with other names.
-/

namespace ProviderCatalog.Store.Tables

variable {t t' : Tables} {n id : Int}

/-- The tables without everything that belongs to a repository, and without links to its
services. -/
def emptied (t : Tables) (id : Int) : Tables where
  repositories := t.repositories
  files := .ofTable (t.files.erase (·.value.repositoryId == id))
  services := t.services.erase (·.value.owner == id)
  resources := (t.resources.erase (·.value.owner == id)).change
    (unlinked (t.services.meets (·.value.owner == id)))
  attributes := t.attributes.erase (t.resources.meets (·.value.owner == id) ·.value.owner)
  sources := t.sources.erase (t.resources.meets (·.value.owner == id) ·.value.owner)
  releases := t.releases.erase (·.value.owner == id)
  entries := t.entries.erase (t.releases.meets (·.value.owner == id) ·.value.owner)

/-! ### Clearing -/

/-- Clearing empties a repository. -/
theorem clearRepository_eq (t : Tables) (id : Int) :
    t.clearRepository id = (Param.bind [.number id]).map fun _ => t.emptied id := by
  -- what belongs to resources and releases is removed twice
  have htwice : (do
      Param.bind [.number id]
      return { t.emptied id with
        attributes := (t.emptied id).attributes.erase
          (t.resources.meets (·.value.owner == id) ·.value.owner)
        sources := (t.emptied id).sources.erase
          (t.resources.meets (·.value.owner == id) ·.value.owner)
        entries := (t.emptied id).entries.erase
          (t.releases.meets (·.value.owner == id) ·.value.owner) } : Except Fault Tables) =
      t.clearRepository id := rfl
  rw [← htwice]
  simp only [emptied, Table.erase_erase]
  cases Param.bind [.number id] <;> rfl

theorem clearRepository_ok (h : t.clearRepository n = .ok t') :
    Param.bind [.number n] = .ok () ∧ t' = t.emptied n := by
  obtain ⟨⟨⟩, hbind, -⟩ := except_bind_eq_ok.mp h
  rw [clearRepository_eq, hbind] at h
  cases h
  exact ⟨hbind, rfl⟩

/-! ### Deleting -/

section Cascades

variable {α β : Type} {owner : α → Int} {table : Table α} {owners : Table β}

/-- What belongs to a row that goes is what has its number for an owner. -/
private theorem meets_owner (h : table.OwnedBy owner owners) (id : Int) :
    ∀ r ∈ table.rows, owners.meets (·.id == id) (owner r.value) = (owner r.value == id) := by
  intro r hr
  rw [Table.meets_id, h r hr, Bool.true_and]

private theorem erase_owner (h : table.OwnedBy owner owners) (id : Int) :
    (table.erase (owner ·.value == id)).OwnedBy owner (owners.erase (·.id == id)) := by
  rw [← Table.erase_congr (meets_owner h id)]
  exact h.erase_owners _

end Cascades

namespace Valid

/-- The cascade of a record empties its repository. -/
private theorem eraseRecords_eq (h : t.Valid) (id : Int) :
    t.eraseRecords (·.id == id) =
      { t.emptied id with repositories := t.repositories.erase (·.id == id) } := by
  have hfiles := meets_owner h.filesOwned id
  have hservices := meets_owner h.servicesOwned id
  have hresources := meets_owner h.resourcesOwned id
  have hreleases := meets_owner h.releasesOwned id
  simp only [eraseRecords, eraseFiles, eraseServices, eraseResources, eraseReleases, emptied,
    Table.erase_change, Table.meets_change, unlinked, FileTable.remove_eq h.files.ascending h.mirrored,
    Table.erase_congr hfiles, Table.erase_congr hservices, Table.erase_congr hresources,
    Table.erase_congr hreleases, Table.meets_congr hservices, Table.meets_congr hresources,
    Table.meets_congr hreleases]

/-- Deleting empties a repository, and removes its record. -/
theorem deleteRepository_eq (h : t.Valid) (id : Int) :
    t.deleteRepository id = (Param.bind [.number id]).map fun _ =>
      { t.emptied id with repositories := t.repositories.erase (·.id == id) } := by
  rw [← h.eraseRecords_eq, Tables.deleteRepository]
  cases Param.bind [.number id] <;> rfl

theorem deleteRepository_ok (h : t.Valid) (hdelete : t.deleteRepository n = .ok t') :
    Param.bind [.number n] = .ok () ∧
      t' = { t.emptied n with repositories := t.repositories.erase (·.id == n) } := by
  obtain ⟨⟨⟩, hbind, -⟩ := except_bind_eq_ok.mp hdelete
  rw [h.deleteRepository_eq, hbind] at hdelete
  cases hdelete
  exact ⟨hbind, rfl⟩

/-! ### Validity -/

/-- Tables stay valid when a repository is emptied. -/
theorem emptied (h : t.Valid) (id : Int) : (t.emptied id).Valid where
  repositories := h.repositories
  files := h.files.erase _
  services := h.services.erase _
  resources := (h.resources.erase _).change fun _ => rfl
  attributes := h.attributes.erase _
  sources := h.sources.erase _
  releases := h.releases.erase _
  entries := h.entries.erase _
  filesOwned := h.filesOwned.erase _
  servicesOwned := h.servicesOwned.erase _
  resourcesOwned := (h.resourcesOwned.erase _).change fun _ => rfl
  attributesOwned := (h.attributesOwned.erase_owners _).mono fun _ hn =>
    (Table.has_change ..).trans hn
  sourcesOwned := (h.sourcesOwned.erase_owners _).mono fun _ hn => (Table.has_change ..).trans hn
  releasesOwned := h.releasesOwned.erase _
  entriesOwned := h.entriesOwned.erase_owners _
  linksThere r hr m hm := by
    obtain ⟨x, hx, rfl⟩ := List.mem_map.mp hr
    obtain ⟨hlink, hkept⟩ := Option.filter_eq_some_iff.mp hm
    have hthere := h.linksThere x (List.mem_of_mem_filter hx) m hlink
    exact Table.has_erase_of_not_meets hthere ((Bool.not_eq_true' _).mp hkept)
  mirrored := rfl

theorem clearRepository (h : t.Valid) (hclear : t.clearRepository n = .ok t') : t'.Valid := by
  obtain ⟨-, rfl⟩ := clearRepository_ok hclear
  exact h.emptied n

theorem deleteRepository (h : t.Valid) (hdelete : t.deleteRepository n = .ok t') : t'.Valid := by
  obtain ⟨-, rfl⟩ := h.deleteRepository_ok hdelete
  exact { h.emptied n with
    repositories := h.repositories.erase _
    filesOwned := erase_owner h.filesOwned n
    servicesOwned := erase_owner h.servicesOwned n
    resourcesOwned := (erase_owner h.resourcesOwned n).change fun _ => rfl
    releasesOwned := erase_owner h.releasesOwned n }

end Valid

/-! ### Links -/

namespace Linked

/-- A link that is kept leads to a service that is kept. -/
private theorem emptied (h : t.Linked) (id : Int) : (t.emptied id).Linked := by
  intro r hr m hm
  obtain ⟨x, hx, rfl⟩ := List.mem_map.mp hr
  obtain ⟨hmem, howner⟩ := List.mem_filter.mp hx
  obtain ⟨s, hs, hid, hsame⟩ := h x hmem m (Option.filter_eq_some_iff.mp hm).1
  refine ⟨s, List.mem_filter.mpr ⟨hs, ?_⟩, hid, hsame⟩
  simpa only [hsame] using howner

theorem clearRepository (h : t.Linked) (hclear : t.clearRepository n = .ok t') : t'.Linked := by
  obtain ⟨-, rfl⟩ := clearRepository_ok hclear
  exact h.emptied n

theorem deleteRepository (h : t.Linked) (hvalid : t.Valid)
    (hdelete : t.deleteRepository n = .ok t') : t'.Linked := by
  obtain ⟨-, rfl⟩ := hvalid.deleteRepository_ok hdelete
  exact h.emptied n

end Linked

/-- No resource of another repository loses its link when a secluded repository is emptied. -/
theorem Secluded.resources_emptied (h : t.Secluded id) :
    (t.emptied id).resources = t.resources.erase (·.value.owner == id) := by
  have hsame : ∀ r ∈ t.resources.rows.filter (!·.value.owner == id),
      (⟨r.id, unlinked (t.services.meets (·.value.owner == id)) r.value⟩ :
        Row (Part StoredResource)) = r := by
    intro r hr
    obtain ⟨hmem, howner⟩ := List.mem_filter.mp hr
    have hne : r.value.owner ≠ id := by simpa using howner
    have hlink : r.value.value.service.filter
        (!t.services.meets (·.value.owner == id) ·) = r.value.value.service := by
      cases hm : r.value.value.service with
      | none => rfl
      | some m =>
        have hkept : t.services.meets (·.value.owner == id) m = false := by
          refine Bool.eq_false_iff.mpr fun hmeets => h r hmem hne m hm ?_
          obtain ⟨s, hs, hid, hsowner⟩ := Table.meets_iff.mp hmeets
          exact ⟨s, hs, hid, beq_iff_eq.mp hsowner⟩
        rw [Option.filter_some, hkept, Bool.not_false, if_pos rfl]
    rw [unlinked, hlink]
  rw [Tables.emptied, Table.change, Table.erase]
  exact congrArg _ ((List.map_congr_left hsame).trans (List.map_id _))

end ProviderCatalog.Store.Tables

/-! ### The numbers of repositories -/

namespace ProviderCatalog.Store.Tables

variable {t t' : Tables} {id n : Int} {name other : Text}

/-- The record of the repository with a name. -/
def row? (t : Tables) (name : Text) : Option (Row RepositoryRecord) :=
  t.repositories.find? (·.name == name)

/-- The repository with a name has a number. -/
def Numbered (t : Tables) (name : Text) (id : Int) : Prop := ∃ r, t.row? name = some r ∧ r.id = id

theorem row?_congr (h : t'.repositories = t.repositories) (name : Text) :
    t'.row? name = t.row? name := by
  rw [row?, row?, h]

theorem Numbered.congr (h : t'.repositories = t.repositories) (hnumbered : t.Numbered name id) :
    t'.Numbered name id := by
  rwa [Numbered, row?_congr h]

theorem Numbered.unique (h : t.Numbered name id) (h' : t.Numbered name n) : id = n := by
  obtain ⟨r, hr, rfl⟩ := h
  obtain ⟨r', hr', rfl⟩ := h'
  rw [Option.some.inj (hr.symm.trans hr')]

/-- A record that is stored is found under its name, with the number that the name has already if
there is one, and with the readme text of the older record if it has none itself. -/
theorem row?_putRepository {r : RepositoryRecord} (hput : t.putRepository r = .ok (t', n)) :
    t'.row? r.name = some ⟨n, (t.row? r.name).elim { r with id := none }
        fun old => succeeding { r with id := none } old.value⟩ ∧
      n = (t.row? r.name).elim t.repositories.next (·.id) := by
  obtain ⟨-, rfl, rfl⟩ := putRepository_ok hput
  exact Table.find?_putMerging fun _ _ => rfl

theorem numbered_putRepository {r : RepositoryRecord} (hput : t.putRepository r = .ok (t', n)) :
    t'.Numbered r.name n :=
  ⟨_, (row?_putRepository hput).1, rfl⟩

/-- A name keeps its number. -/
theorem Numbered.putRepository {r : RepositoryRecord} (h : t.Numbered r.name id)
    (hput : t.putRepository r = .ok (t', n)) : n = id := by
  obtain ⟨x, hx, rfl⟩ := h
  rw [(row?_putRepository hput).2, hx]
  rfl

/-- Storing a record does not touch the records with other names. -/
theorem rows_putRepository {r : RepositoryRecord} (hput : t.putRepository r = .ok (t', n)) :
    t'.repositories.rows.filter (·.value.name != r.name) =
      t.repositories.rows.filter (·.value.name != r.name) := by
  obtain ⟨-, rfl, -⟩ := putRepository_ok hput
  refine Table.filter_putMerging (fun x hx => ?_) fun _ _ => rfl
  simp only [bne, hx, BEq.rfl, Bool.not_true]

/-- A record is found by what the records with other names leave. -/
theorem row?_of_rows_eq (h : t'.repositories.rows.filter (·.value.name != name) =
    t.repositories.rows.filter (·.value.name != name)) (hname : other ≠ name) :
    t'.row? other = t.row? other := by
  have hfound (u : Tables) : u.row? other =
      (u.repositories.rows.filter (·.value.name != name)).find? (·.value.name == other) := by
    rw [List.find?_filter]
    refine congrArg (List.find? · _) (funext fun r => ?_)
    by_cases hr : r.value.name = other
    · simp [hr, hname]
    · simp [hr]
  rw [hfound, hfound, h]

theorem repositories_clearRepository (hclear : t.clearRepository n = .ok t') :
    t'.repositories = t.repositories := by
  obtain ⟨-, rfl⟩ := clearRepository_ok hclear
  rfl

namespace Valid

theorem row?_eq_some (h : t.Valid) {r : Row RepositoryRecord} :
    t.row? name = some r ↔ r ∈ t.repositories.rows ∧ r.value.name = name :=
  h.repositories.find?_eq_some

/-- Repositories with different names have different numbers. -/
theorem id_ne (h : t.Valid) (hnumbered : t.Numbered name id) {r : Row RepositoryRecord}
    (hr : r ∈ t.repositories.rows) (hname : r.value.name ≠ name) : r.id ≠ id := by
  obtain ⟨x, hx, rfl⟩ := hnumbered
  obtain ⟨hmem, rfl⟩ := h.row?_eq_some.mp hx
  exact fun hid => hname (congrArg (·.value.name) (h.repositories.eq_of_id hr hmem hid))

/-- Deleting a record does not touch the records with other names. -/
theorem rows_deleteRepository (h : t.Valid) (hdelete : t.deleteRepository id = .ok t')
    (hnumbered : t.Numbered name id) :
    t'.repositories.rows.filter (·.value.name != name) =
      t.repositories.rows.filter (·.value.name != name) := by
  obtain ⟨-, rfl⟩ := h.deleteRepository_ok hdelete
  change (t.repositories.rows.filter _).filter _ = _
  rw [List.filter_filter]
  refine List.filter_congr fun r hr => ?_
  by_cases hname : r.value.name = name
  · simp only [bne, hname, BEq.rfl, Bool.not_true, Bool.false_and]
  · simp only [beq_eq_false_iff_ne.mpr (h.id_ne hnumbered hr hname), Bool.not_false, Bool.and_true]

/-- A record that was deleted is not found any more. -/
theorem row?_deleteRepository (h : t.Valid) (hdelete : t.deleteRepository id = .ok t')
    (hnumbered : t.Numbered name id) : t'.row? name = none := by
  obtain ⟨-, rfl⟩ := h.deleteRepository_ok hdelete
  obtain ⟨x, hx, rfl⟩ := hnumbered
  obtain ⟨hmem, rfl⟩ := h.row?_eq_some.mp hx
  refine List.find?_eq_none.mpr fun r hr hname => ?_
  obtain ⟨hrmem, hid⟩ := List.mem_filter.mp hr
  have hsame : r = x := h.repositories.eq_of_key hrmem hmem (beq_iff_eq.mp hname)
  simp only [hsame, BEq.rfl, Bool.not_true, Bool.false_eq_true] at hid

end Valid

end ProviderCatalog.Store.Tables
