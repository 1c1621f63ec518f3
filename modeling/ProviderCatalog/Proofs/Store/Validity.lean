import ProviderCatalog.Proofs.Store.Writes

/-!
# Valid tables

Tables are valid when each of them is sound, every row that is owned has its owner, every link of a
resource leads to a service, and the index is that of the files. Writes keep tables valid.

## Main definitions

* `Tables.Valid`: the tables are sound, owners and linked services are there, and so is the index.
* `Tables.Linked`: resources are linked to services of their own repository only.

## Main results

* `Tables.Valid.putRepository` and the like: every write keeps tables valid.
-/

namespace ProviderCatalog.Store

open Schema (Attribute Resource Service SnippetBundle)
open Changelog (Entry ReleaseRecord)

variable {α β : Type}

/-- Every row has its owner among the rows of another table. -/
def Table.OwnedBy (owner : α → Int) (t : Table α) (owners : Table β) : Prop :=
  ∀ r ∈ t.rows, owners.has (owner r.value) = true

namespace Table.OwnedBy

variable {owner : α → Int} {t : Table α} {owners owners' : Table β}

theorem empty (owner : α → Int) (owners : Table β) :
    OwnedBy owner (Table.empty : Table α) owners :=
  fun _ h => nomatch h

theorem mono (h : t.OwnedBy owner owners)
    (howners : ∀ n, owners.has n = true → owners'.has n = true) : t.OwnedBy owner owners' :=
  fun r hr => howners _ (h r hr)

theorem put {κ : Type} [BEq κ] [LawfulBEq κ] {key : α → κ} {a : α} (h : t.OwnedBy owner owners)
    (ha : owners.has (owner a) = true) : (t.put key a).1.OwnedBy owner owners := by
  intro r hr
  rcases Table.mem_put hr with hr | rfl
  · exact h r hr
  · exact ha

theorem append {a : α} (h : t.OwnedBy owner owners) (ha : owners.has (owner a) = true) :
    (t.append a).OwnedBy owner owners := by
  intro r hr
  rcases List.mem_append.mp hr with hr | hr
  · exact h r hr
  · rw [List.mem_singleton.mp hr]
    exact ha

theorem erase (h : t.OwnedBy owner owners) (p : Row α → Bool) :
    (t.erase p).OwnedBy owner owners :=
  fun r hr => h r (List.mem_of_mem_filter hr)

theorem change (h : t.OwnedBy owner owners) {f : α → α} (hf : ∀ a, owner (f a) = owner a) :
    (t.change f).OwnedBy owner owners := by
  intro r hr
  obtain ⟨x, hx, rfl⟩ := List.mem_map.mp hr
  dsimp only
  rw [hf]
  exact h x hx

/-- Rows stay with their owners when owners go, if those go that belong to them. -/
theorem erase_owners (h : t.OwnedBy owner owners) (p : Row β → Bool) :
    (t.erase fun r => owners.meets p (owner r.value)).OwnedBy owner (owners.erase p) := by
  intro r hr
  obtain ⟨hmem, hnot⟩ := List.mem_filter.mp hr
  exact has_erase_of_not_meets (h r hmem) ((Bool.not_eq_true' _).mp hnot)

end Table.OwnedBy

namespace Tables

/-- Tables that are sound one by one, and refer to each other by numbers that are there. -/
structure Valid (t : Tables) : Prop where
  repositories : t.repositories.Sound (·.name)
  files : t.files.Sound fileKey
  services : t.services.Sound serviceKey
  resources : t.resources.Sound resourceKey
  attributes : t.attributes.Sound attributeKey
  sources : t.sources.Sound Part.owner
  releases : t.releases.Sound releaseKey
  entries : t.entries.Sound entryKey
  filesOwned : t.files.OwnedBy (·.repositoryId) t.repositories
  servicesOwned : t.services.OwnedBy Part.owner t.repositories
  resourcesOwned : t.resources.OwnedBy Part.owner t.repositories
  attributesOwned : t.attributes.OwnedBy Part.owner t.resources
  sourcesOwned : t.sources.OwnedBy Part.owner t.resources
  releasesOwned : t.releases.OwnedBy Part.owner t.repositories
  entriesOwned : t.entries.OwnedBy Part.owner t.releases
  linksThere : ∀ r ∈ t.resources.rows, ∀ n, r.value.value.service = some n → t.services.has n = true
  mirrored : t.files.index = indexOf t.files.toTable

/-- Every resource that is linked to a service is linked to one of its own repository. -/
def Linked (t : Tables) : Prop :=
  ∀ r ∈ t.resources.rows, ∀ n, r.value.value.service = some n →
    ∃ s ∈ t.services.rows, s.id = n ∧ s.value.owner = r.value.owner

variable {t t' : Tables} {n repository resource release : Int}

namespace Valid

theorem empty : Valid Tables.empty where
  repositories := .empty _
  files := .empty _
  services := .empty _
  resources := .empty _
  attributes := .empty _
  sources := .empty _
  releases := .empty _
  entries := .empty _
  filesOwned := .empty _ _
  servicesOwned := .empty _ _
  resourcesOwned := .empty _ _
  attributesOwned := .empty _ _
  sourcesOwned := .empty _ _
  releasesOwned := .empty _ _
  entriesOwned := .empty _ _
  linksThere _ h := nomatch h
  mirrored := rfl

/-- The index mirrors the files after a file was stored. -/
theorem store_eq (h : Valid t) (f : RepositoryFile) :
    t.files.store f = .ofTable (t.files.put fileKey f).1 :=
  FileTable.store_eq h.files.ascending h.files.bounded h.mirrored f

/-! ### Writes -/

theorem putRepository {r : RepositoryRecord} (h : Valid t)
    (hput : t.putRepository r = .ok (t', n)) : Valid t' := by
  obtain ⟨-, rfl, -⟩ := putRepository_ok hput
  have hthere (n : Int) (hn : t.repositories.has n = true) :
      (t.repositories.putMerging (·.name) (succeeding { r with id := none })
        { r with id := none }).1.has n = true :=
    Table.has_putMerging (fun _ _ => rfl) hn
  exact { h with
    repositories := h.repositories.putMerging fun _ _ => rfl
    filesOwned := h.filesOwned.mono hthere
    servicesOwned := h.servicesOwned.mono hthere
    resourcesOwned := h.resourcesOwned.mono hthere
    releasesOwned := h.releasesOwned.mono hthere }

theorem putFile {f : RepositoryFile} (h : Valid t) (hput : t.putFile f = .ok t') : Valid t' := by
  obtain ⟨-, hrepository, rfl⟩ := putFile_ok hput
  exact { h with
    files := h.files.put f
    filesOwned := h.filesOwned.put hrepository
    mirrored := congrArg (·.index) (h.store_eq f) }

theorem putService {s : Service} (h : Valid t) (hput : t.putService repository s = .ok (t', n)) :
    Valid t' := by
  obtain ⟨-, hrepository, rfl, -⟩ := putService_ok hput
  exact { h with
    services := h.services.put _
    servicesOwned := h.servicesOwned.put hrepository
    linksThere := fun r hr s hs => Table.has_put _ _ (h.linksThere r hr s hs) }

theorem putResource {r : Resource} {link : Option Int} (h : Valid t)
    (hput : t.putResource repository r link = .ok (t', n)) : Valid t' := by
  obtain ⟨-, hrepository, hlink, rfl, -⟩ := putResource_ok hput
  exact { h with
    resources := h.resources.put _
    resourcesOwned := h.resourcesOwned.put hrepository
    attributesOwned := h.attributesOwned.mono fun _ hn => Table.has_put _ _ hn
    sourcesOwned := h.sourcesOwned.mono fun _ hn => Table.has_put _ _ hn
    linksThere := fun r' hr' s hs => by
      rcases Table.mem_put hr' with hr' | rfl
      · exact h.linksThere r' hr' s hs
      · exact hlink s hs }

theorem putAttribute {a : Attribute} (h : Valid t) (hput : t.putAttribute resource a = .ok t') :
    Valid t' := by
  obtain ⟨-, hresource, rfl⟩ := putAttribute_ok hput
  exact { h with
    attributes := h.attributes.put _
    attributesOwned := h.attributesOwned.put hresource }

theorem putSource {x : SnippetBundle} (h : Valid t) (hput : t.putSource resource x = .ok t') :
    Valid t' := by
  obtain ⟨-, hresource, rfl⟩ := putSource_ok hput
  exact { h with
    sources := h.sources.put _
    sourcesOwned := h.sourcesOwned.put hresource }

theorem putRelease {r : ReleaseRecord} (h : Valid t)
    (hput : t.putRelease repository r = .ok (t', n)) : Valid t' := by
  obtain ⟨-, hrepository, rfl, -⟩ := putRelease_ok hput
  exact { h with
    releases := h.releases.put _
    releasesOwned := h.releasesOwned.put hrepository
    entriesOwned := h.entriesOwned.mono fun _ hn => Table.has_put _ _ hn }

theorem addEntry {e : Entry} (h : Valid t) (hadd : t.addEntry release e = .ok t') : Valid t' := by
  obtain ⟨-, hkeys, hrelease, rfl⟩ := addEntry_ok hadd
  exact { h with
    entries := h.entries.append hkeys
    entriesOwned := h.entriesOwned.append hrelease }

private theorem addEntries {es : List Entry} (h : Valid t)
    (hadd : es.foldlM (fun t e => t.addEntry release e) t = .ok t') : Valid t' := by
  induction es generalizing t with
  | nil =>
    cases hadd
    exact h
  | cons e es ih =>
    obtain ⟨u, hu, hadd⟩ := except_bind_eq_ok.mp ((List.foldlM_cons ..).symm.trans hadd)
    exact ih (h.addEntry hu) hadd

theorem replaceEntries {es : List Entry} (h : Valid t)
    (hreplace : t.replaceEntries release es = .ok t') : Valid t' := by
  obtain ⟨-, hadd⟩ := replaceEntries_ok hreplace
  have hcleared : Valid { t with entries := t.entries.erase (·.value.owner == release) } :=
    { h with
      entries := h.entries.erase _
      entriesOwned := h.entriesOwned.erase _ }
  exact addEntries hcleared hadd

end Valid

/-! ### Links within a repository -/

namespace Linked

theorem empty : Linked Tables.empty := fun _ h => nomatch h

theorem putRepository {r : RepositoryRecord} (h : Linked t)
    (hput : t.putRepository r = .ok (t', n)) : Linked t' := by
  obtain ⟨-, rfl, -⟩ := putRepository_ok hput
  exact h

end Linked

end Tables

end ProviderCatalog.Store
