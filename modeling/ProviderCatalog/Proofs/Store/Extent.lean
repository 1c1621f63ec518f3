import ProviderCatalog.Proofs.Store.Emptying
import ProviderCatalog.Proofs.Store.Calls

/-!
# The extent of a repository, and what its removal takes away

The extent of a repository is its record with all rows that belong to it, with their numbers:
directly, or to one of its resources or releases. What is done for one repository leaves the extents
of the others as they are.

Where every resource is linked to a service of its own repository, clearing takes away exactly the
rows that belong to a repository, and deleting takes away its record besides. All other rows stay as
they are, with their links.

## Main definitions

* `Extent`, `Tables.extentOf`, `Tables.extents`: the extent of a record, and of all of them.
* `Tables.SameOthers`: the extents of all repositories but one are the same.
* `Tables.belongsTo`: whether a row belongs to a repository.

## Main results

* `Tables.Valid.sameOthers_fill`: a fill keeps the extents of the other repositories.
* `Tables.sameOthers_putRepository`, `Tables.Valid.sameOthers_clearRepository`,
  `Tables.Valid.sameOthers_deleteRepository`: so do the operations on a record.
* `Tables.Secluded.table_emptied`: the tables that a removal leaves.
* `removals_after_calls`: clearing and deleting after any calls.
-/

namespace ProviderCatalog.Store

open Schema (Attribute SnippetBundle)
open Changelog (Entry ReleaseRecord)

variable {α ν : Type}

/-- Whether the row with a number belongs to an owner. -/
def Table.owns (t : Table (Part α)) (owner n : Int) : Bool :=
  t.rows.any fun r => r.id == n && r.value.owner == owner

theorem Table.owns_iff {t : Table (Part α)} {owner n : Int} :
    t.owns owner n = true ↔ t.IsOwned n owner := by
  simp only [Table.owns, Table.IsOwned, List.any_eq_true, Bool.and_eq_true, beq_iff_eq]

/-- The rows of an owner tell which numbers it owns. -/
theorem Table.owns_eq (t : Table (Part α)) (owner n : Int) :
    t.owns owner n = (t.rows.filter (·.value.owner == owner)).any (·.id == n) := by
  rw [Table.owns, List.any_filter]
  exact congrArg _ (funext fun r => Bool.and_comm _ _)

/-- A record with all rows that belong to it. -/
structure Extent where
  record : Row RepositoryRecord
  files : List (Row RepositoryFile)
  services : List (Row (Part StoredService))
  resources : List (Row (Part StoredResource))
  attributes : List (Row (Part Attribute))
  sources : List (Row (Part SnippetBundle))
  releases : List (Row (Part ReleaseRecord))
  entries : List (Row (Part Entry))
deriving DecidableEq

namespace Tables

/-- A record with all rows that belong to it, to its resources or to its releases. -/
def extentOf (t : Tables) (r : Row RepositoryRecord) : Extent where
  record := r
  files := t.files.rows.filter (·.value.repositoryId == r.id)
  services := t.services.rows.filter (·.value.owner == r.id)
  resources := t.resources.rows.filter (·.value.owner == r.id)
  attributes := t.attributes.rows.filter (t.resources.owns r.id ·.value.owner)
  sources := t.sources.rows.filter (t.resources.owns r.id ·.value.owner)
  releases := t.releases.rows.filter (·.value.owner == r.id)
  entries := t.entries.rows.filter (t.releases.owns r.id ·.value.owner)

/-- The extents of all repositories. -/
def extents (t : Tables) : List Extent := t.repositories.rows.map t.extentOf

variable {t t' : Tables} {id : Int} {name : Text}

/-! ### Fills -/

private theorem filter_owner_put {κ : Type} [BEq κ] [LawfulBEq κ] {key : Part α → κ}
    (hkey : ∀ p q : Part α, key p = key q → p.owner = q.owner) (table : Table (Part α))
    {a : Part α} {m : Int} (hm : a.owner ≠ m) :
    (table.put key a).1.rows.filter (·.value.owner == m) =
      table.rows.filter (·.value.owner == m) := by
  refine Table.filter_put fun r hr => ?_
  rw [hkey _ _ hr]
  exact beq_eq_false_iff_ne.mpr hm

/-- Writes to what another owner owns do not touch the rows that belong to the rows of an owner. -/
private theorem filter_owns_put {β κ : Type} [BEq κ] [LawfulBEq κ] {key : Part β → κ}
    (hkey : ∀ p q : Part β, key p = key q → p.owner = q.owner) (table : Table (Part β))
    {owners : Table (Part α)} {ownerKey : Part α → ν} (hsound : owners.Sound ownerKey)
    {a : Part β} {m : Int} (hm : id ≠ m) (howned : owners.IsOwned a.owner id) :
    (table.put key a).1.rows.filter (owners.owns m ·.value.owner) =
      table.rows.filter (owners.owns m ·.value.owner) := by
  refine Table.filter_put fun r hr => ?_
  rw [hkey _ _ hr]
  exact Bool.eq_false_iff.mpr fun h => hm (howned.unique hsound (Table.owns_iff.mp h))

/-- A fill for one repository keeps what belongs to the others. -/
theorem Fill.extentOf (h : Fill id t t') (hvalid : t.Valid) {r : Row RepositoryRecord}
    (hr : id ≠ r.id) : t'.extentOf r = t.extentOf r := by
  have htouched := h.touched
  have hfiles : t'.files.rows.filter (·.value.repositoryId == r.id) =
      t.files.rows.filter (·.value.repositoryId == r.id) := by
    rcases htouched.files with hsame | ⟨f, howner, hput⟩
    · rw [hsame]
    · rw [hput]
      refine Table.filter_put fun x hx => ?_
      have howner' : x.value.repositoryId = id := (congrArg Prod.fst hx).trans howner
      exact beq_eq_false_iff_ne.mpr (howner' ▸ hr)
  have hservices : t'.services.rows.filter (·.value.owner == r.id) =
      t.services.rows.filter (·.value.owner == r.id) := by
    rcases htouched.services with hsame | ⟨s, hput⟩
    · rw [hsame]
    · rw [hput, filter_owner_put serviceKey_owner _ hr]
  have hresources : t'.resources.rows.filter (·.value.owner == r.id) =
      t.resources.rows.filter (·.value.owner == r.id) := by
    rcases htouched.resources with hsame | ⟨x, -, hput⟩
    · rw [hsame]
    · rw [hput, filter_owner_put resourceKey_owner _ hr]
  have hreleases : t'.releases.rows.filter (·.value.owner == r.id) =
      t.releases.rows.filter (·.value.owner == r.id) := by
    rcases htouched.releases with hsame | ⟨x, hput⟩
    · rw [hsame]
    · rw [hput, filter_owner_put releaseKey_owner _ hr]
  have howns (n : Int) : t'.resources.owns r.id n = t.resources.owns r.id n := by
    rw [Table.owns_eq, Table.owns_eq, hresources]
  have howns' (n : Int) : t'.releases.owns r.id n = t.releases.owns r.id n := by
    rw [Table.owns_eq, Table.owns_eq, hreleases]
  have hattributes : t'.attributes.rows.filter (t.resources.owns r.id ·.value.owner) =
      t.attributes.rows.filter (t.resources.owns r.id ·.value.owner) := by
    rcases htouched.attributes with hsame | ⟨n, a, howned, hput⟩
    · rw [hsame]
    · rw [hput]
      exact filter_owns_put (fun _ _ hkey => congrArg Prod.fst hkey) _ hvalid.resources hr howned
  have hsources : t'.sources.rows.filter (t.resources.owns r.id ·.value.owner) =
      t.sources.rows.filter (t.resources.owns r.id ·.value.owner) := by
    rcases htouched.sources with hsame | ⟨n, x, howned, hput⟩
    · rw [hsame]
    · rw [hput]
      exact filter_owns_put (fun _ _ hkey => hkey) _ hvalid.resources hr howned
  have hentries : t'.entries.rows.filter (t.releases.owns r.id ·.value.owner) =
      t.entries.rows.filter (t.releases.owns r.id ·.value.owner) := by
    rcases htouched.entries with hsame | ⟨n, howned, hrows⟩
    · rw [hsame]
    · refine hrows _ fun x hx => Bool.eq_false_iff.mpr fun hown => ?_
      exact hr (howned.unique hvalid.releases (Table.owns_iff.mp (hx ▸ hown)))
  simp only [Tables.extentOf, howns, howns', hfiles, hservices, hresources, hattributes, hsources,
    hreleases, hentries]

/-! ### All repositories but one -/

/-- The extents of all repositories but the one with a name are the same, in the same order. -/
def SameOthers (name : Text) (t t' : Tables) : Prop :=
  t'.extents.filter (·.record.value.name != name) = t.extents.filter (·.record.value.name != name)

theorem SameOthers.refl (name : Text) (t : Tables) : SameOthers name t t := rfl

theorem SameOthers.trans {u : Tables} (h : SameOthers name t u) (h' : SameOthers name u t') :
    SameOthers name t t' :=
  Eq.trans h' h

/-- Extents are the same when the records are, and what belongs to each of them. -/
private theorem sameOthers_of_rows
    (hrows : t'.repositories.rows.filter (·.value.name != name) =
      t.repositories.rows.filter (·.value.name != name))
    (hextent : ∀ r ∈ t.repositories.rows, r.value.name ≠ name → t'.extentOf r = t.extentOf r) :
    SameOthers name t t' := by
  have hfilter (u : Tables) : u.extents.filter (·.record.value.name != name) =
      (u.repositories.rows.filter (·.value.name != name)).map u.extentOf := by
    rw [extents, List.filter_map]
    rfl
  rw [SameOthers, hfilter, hfilter, hrows]
  refine List.map_congr_left fun r hr => ?_
  obtain ⟨hmem, hname⟩ := List.mem_filter.mp hr
  exact hextent r hmem (bne_iff_ne.mp hname)

/-- Storing a record keeps the extents of the repositories with other names. -/
theorem sameOthers_putRepository {r : RepositoryRecord}
    (hput : t.putRepository r = .ok (t', id)) : SameOthers r.name t t' := by
  refine sameOthers_of_rows (rows_putRepository hput) fun _ _ _ => ?_
  obtain ⟨-, rfl, -⟩ := putRepository_ok hput
  rfl

/-- Emptying a secluded repository keeps what belongs to the others. -/
private theorem extentOf_emptied (hvalid : t.Valid) (hsecluded : t.Secluded id)
    {r : Row RepositoryRecord} (hr : r.id ≠ id) : (t.emptied id).extentOf r = t.extentOf r := by
  have hkept {β : Type} (owner : β → Int) (table : Table β) :
      (table.erase (owner ·.value == id)).rows.filter (owner ·.value == r.id) =
        table.rows.filter (owner ·.value == r.id) := by
    rw [Table.erase, List.filter_filter]
    refine List.filter_congr fun x _ => ?_
    by_cases hx : owner x.value = r.id
    · simp only [hx, beq_eq_false_iff_ne.mpr hr, Bool.not_false, Bool.and_true]
    · simp only [beq_eq_false_iff_ne.mpr hx, Bool.false_and]
  have hparts {β γ κ : Type} {key : Part γ → κ} {owners : Table (Part γ)}
      (hsound : owners.Sound key) (table : Table (Part β)) :
      (table.erase (owners.meets (·.value.owner == id) ·.value.owner)).rows.filter
        (owners.owns r.id ·.value.owner) = table.rows.filter (owners.owns r.id ·.value.owner) := by
    rw [Table.erase, List.filter_filter]
    refine List.filter_congr fun x _ => ?_
    cases howns : owners.owns r.id x.value.owner with
    | false => rfl
    | true =>
      have hnot : owners.owns id x.value.owner = false := Bool.eq_false_iff.mpr fun h =>
        hr ((Table.owns_iff.mp howns).unique hsound (Table.owns_iff.mp h))
      exact (Bool.true_and _).trans (congrArg not hnot)
  have hresources : (t.emptied id).resources.rows.filter (·.value.owner == r.id) =
      t.resources.rows.filter (·.value.owner == r.id) := by
    rw [hsecluded.resources_emptied]
    exact hkept Part.owner t.resources
  have hreleases : (t.emptied id).releases.rows.filter (·.value.owner == r.id) =
      t.releases.rows.filter (·.value.owner == r.id) := hkept Part.owner t.releases
  have howns (n : Int) : (t.emptied id).resources.owns r.id n = t.resources.owns r.id n := by
    rw [Table.owns_eq, Table.owns_eq, hresources]
  have howns' (n : Int) : (t.emptied id).releases.owns r.id n = t.releases.owns r.id n := by
    rw [Table.owns_eq, Table.owns_eq, hreleases]
  simp only [extentOf, howns, howns', hresources, hreleases]
  congr 1
  · exact hkept RepositoryFile.repositoryId t.files.toTable
  · exact hkept Part.owner t.services
  · exact hparts hvalid.resources t.attributes
  · exact hparts hvalid.resources t.sources
  · exact hparts hvalid.releases t.entries

namespace Valid

/-- A fill for one repository keeps the extents of the others. -/
theorem sameOthers_fill (h : t.Valid) (hnumbered : t.Numbered name id) (hfill : Fill id t t') :
    SameOthers name t t' :=
  sameOthers_of_rows (by rw [hfill.touched.repositories]) fun _ hr hname =>
    hfill.extentOf h (h.id_ne hnumbered hr hname).symm

/-- Clearing a secluded repository keeps the extents of the others. -/
theorem sameOthers_clearRepository (h : t.Valid) (hsecluded : t.Secluded id)
    (hnumbered : t.Numbered name id) (hclear : t.clearRepository id = .ok t') :
    SameOthers name t t' := by
  refine sameOthers_of_rows (by rw [repositories_clearRepository hclear]) fun r hr hname => ?_
  obtain ⟨-, rfl⟩ := clearRepository_ok hclear
  exact extentOf_emptied h hsecluded (h.id_ne hnumbered hr hname)

/-- Deleting a secluded repository keeps the extents of the others. -/
theorem sameOthers_deleteRepository (h : t.Valid) (hsecluded : t.Secluded id)
    (hnumbered : t.Numbered name id) (hdelete : t.deleteRepository id = .ok t') :
    SameOthers name t t' := by
  refine sameOthers_of_rows (h.rows_deleteRepository hdelete hnumbered) fun r hr hname => ?_
  obtain ⟨-, rfl⟩ := h.deleteRepository_ok hdelete
  exact extentOf_emptied h hsecluded (h.id_ne hnumbered hr hname)

end Valid

end Tables

end ProviderCatalog.Store

namespace ProviderCatalog.Store

namespace Tables

variable {t : Tables} {id : Int}

/-- Whether a row belongs to a repository: to its record, or to one of its resources or releases. -/
def belongsTo (t : Tables) (id : Int) : (k : Kind) → k.Value → Bool
  | .repositories, _ => false
  | .files, f => f.repositoryId == id
  | .services, p => p.owner == id
  | .resources, p => p.owner == id
  | .attributes, p => t.resources.owns id p.owner
  | .sources, p => t.resources.owns id p.owner
  | .releases, p => p.owner == id
  | .entries, p => t.releases.owns id p.owner

/-- No row belongs to two repositories. -/
theorem Valid.belongsTo_unique (h : t.Valid) {other : Int} {k : Kind} {a : k.Value}
    (hid : t.belongsTo id k a = true) (hother : t.belongsTo other k a = true) : id = other := by
  cases k with
  | repositories => exact nomatch hid
  | files | services | resources | releases =>
    exact (beq_iff_eq.mp hid).symm.trans (beq_iff_eq.mp hother)
  | attributes | sources =>
    exact (Table.owns_iff.mp hid).unique h.resources (Table.owns_iff.mp hother)
  | entries => exact (Table.owns_iff.mp hid).unique h.releases (Table.owns_iff.mp hother)

/-- A secluded repository is emptied by removing the rows that belong to it. -/
theorem Secluded.table_emptied (h : t.Secluded id) (k : Kind) :
    (t.emptied id).table k = (t.table k).erase fun r => t.belongsTo id k r.value := by
  cases k with
  | repositories =>
    have hall : t.repositories.rows.filter (fun _ => !false) = t.repositories.rows :=
      List.filter_eq_self.mpr fun _ _ => rfl
    exact congrArg (Table.mk _) hall.symm
  | resources => exact h.resources_emptied
  | files | services | attributes | sources | releases | entries => rfl

instance (t : Tables) : Decidable t.Linked :=
  decidable_of_iff (∀ r ∈ t.resources.rows, ∀ n ∈ r.value.value.service,
    ∃ s ∈ t.services.rows, s.id = n ∧ s.value.owner = r.value.owner) Iff.rfl

end Tables

/-- After any calls to an initialised store that left every resource with a service of its own
repository, clearing a repository removes from every table exactly the rows that belong to the
repository, and neither its record nor a row of another repository; deleting leaves what clearing
leaves, but for the record. Both fail in the same way, only for a number that fits into no
column. -/
theorem removals_after_calls (calls : List Call) (id : Int)
    (hlinked : (ready.after calls).contents.Linked) :
    let s : Store := { ready.after calls with outOfOrder := [] }
    ∃ t : Tables,
      (∀ k, t.table k = (s.contents.table k).erase fun r => s.contents.belongsTo id k r.value) ∧
      (∀ k, ∀ r ∈ (s.contents.table k).rows, ∀ other, other ≠ id →
        s.contents.belongsTo other k r.value = true → r ∈ (t.table k).rows) ∧
      t.repositories = s.contents.repositories ∧ t.files.index = indexOf t.files.toTable ∧
      (s.clearRepository id = (Param.bind [.number id]).map fun _ => { s with tables := some t }) ∧
      (s.deleteRepository id = (Param.bind [.number id]).map fun _ =>
        { s with tables := some { t with repositories := t.repositories.erase (·.id == id) } }) ∧
      (Param.bind [.number id] = .ok () ↔ -(2 ^ 63) ≤ id ∧ id < 2 ^ 63) := by
  intro s
  obtain ⟨htables, hvalid⟩ := ready_after calls
  have hs : s.tables = some (ready.after calls).contents := htables
  have hclear : s.clearRepository id = _ := update_inOrder rfl hs
  have hdelete : s.deleteRepository id = _ := update_inOrder rfl hs
  rw [Tables.clearRepository_eq] at hclear
  rw [hvalid.deleteRepository_eq] at hdelete
  have hrows := (Tables.Secluded.of_linked hlinked hvalid id).table_emptied
  refine ⟨(ready.after calls).contents.emptied id, hrows, ?_, rfl, rfl, ?_, ?_, ?_⟩
  · intro k r hr other hother hbelongs
    rw [hrows]
    refine List.mem_filter.mpr ⟨hr, (Bool.not_eq_true' _).mpr (Bool.eq_false_iff.mpr fun hid => ?_)⟩
    exact hother (hvalid.belongsTo_unique hbelongs hid)
  · rw [hclear]
    cases Param.bind [.number id] <;> rfl
  · rw [hdelete]
    cases Param.bind [.number id] <;> rfl
  · simp [Param.bind_eq_ok_iff, Param.fits_iff]

/-! ### Two repositories -/

/-- Calls that give the repository with a number a record, a file, a service, a resource that is
linked to the service, its source, and a release with an entry, if numbers are given out alike. -/
private def furnishing (n : Int) (name : Text) : List Call :=
  [.insertRepository ⟨none, name, name, none, [], none, none⟩,
    .insertFile ⟨n, "a.go", "a.go", "go", "package a", 9⟩,
    .insertService n ⟨"Compute", "a.go", none, [], none⟩,
    .insertResource n ⟨"p_a", .resource, none, none, none, none, none, none, [], none, none⟩ (some n),
    .insertSource n ⟨"a", "a.go", none, none, none, none, none, none⟩,
    .insertRelease n ⟨none, "1.0.0", "v1.0.0", none, none, none, none, none, none⟩,
    .replaceEntries n [⟨"Notes", "a", "A", none, none, none, none, 0⟩]].map (Call.mk [])

/-- Calls that leave two repositories alike. -/
def twoRepositoriesCalls : List Call := furnishing 1 "x" ++ furnishing 2 "y"

/-- Of two repositories alike, the rows of the second stay when the first is cleared or deleted. -/
theorem removals_after_calls_of_two :
    let s : Store := { ready.after twoRepositoriesCalls with outOfOrder := [] }
    s.contents.Linked ∧ ∃ t : Tables,
      s.clearRepository 1 = .ok { s with tables := some t } ∧
      s.deleteRepository 1 = .ok
        { s with tables := some { t with repositories := t.repositories.erase (·.id == 1) } } ∧
      t.repositories.rows.map (·.id) = [1, 2] ∧
      t.resources.rows.map (fun r => (r.id, r.value.owner, r.value.value.service)) =
        [(2, 2, some 2)] ∧
      t.sources.rows.map (·.id) = [2] ∧ t.entries.rows.map (·.id) = [2] := by
  intro s
  have hlinked : (ready.after twoRepositoriesCalls).contents.Linked := by decide +kernel
  obtain ⟨t, hrows, -, -, -, hclear, hdelete, hfits⟩ :=
    removals_after_calls twoRepositoriesCalls 1 hlinked
  rw [hfits.mpr (by decide)] at hclear hdelete
  refine ⟨hlinked, t, hclear, hdelete, ?_, ?_, ?_, ?_⟩
  · have hrepositories : t.repositories = _ := hrows .repositories
    rw [hrepositories]
    decide +kernel
  · have hresources : t.resources = _ := hrows .resources
    rw [hresources]
    decide +kernel
  · have hsources : t.sources = _ := hrows .sources
    rw [hsources]
    decide +kernel
  · have hentries : t.entries = _ := hrows .entries
    rw [hentries]
    decide +kernel

end ProviderCatalog.Store
