import ProviderCatalog.Proofs.Store.Emptying

/-!
# Upserts and the numbers of rows

The eight tables are alike: their rows have numbers and keys, and refer to rows of other tables. A
write under a key leaves one row with the key, whose number is the one that it had before if there
was such a row, and touches no other row. A number that a table gives to a new row is above all
those that it gave out before, whatever was removed in between.

## Main definitions

* `Kind`, `Tables.table`: the tables by name, with the values, keys and references of their rows.
* `Tables.Consistent`: keys and numbers differ, and rows refer to rows that are there.
* `Tables.Advances`: new rows have numbers above those that were given out before.
* `Tables.Upserted`: what a write under a key does.

## Main results

* `Tables.Valid.consistent`: valid tables are consistent.
* `Tables.Valid.putRepository_upserts` and the like: each write is an upsert.
* `Tables.clearRepository_advances` and the like: removals give out no numbers.
-/

namespace ProviderCatalog.Store

open Schema (Attribute Resource ResourceKind Service SnippetBundle)
open Changelog (Entry ReleaseRecord)

variable {α κ : Type}

/-! ### Tables by name -/

/-- The tables of the catalog, by name. -/
inductive Kind where
  | repositories
  | files
  | services
  | resources
  | attributes
  | sources
  | releases
  | entries
deriving DecidableEq, Repr

namespace Kind

/-- What a row of a table holds. -/
abbrev Value : Kind → Type
  | repositories => RepositoryRecord
  | files => RepositoryFile
  | services => Part StoredService
  | resources => Part StoredResource
  | attributes => Part Attribute
  | sources => Part SnippetBundle
  | releases => Part ReleaseRecord
  | entries => Part Entry

/-- The keys of a table. -/
abbrev Key : Kind → Type
  | repositories => Text
  | files | services | attributes | releases | entries => Int × Text
  | resources => Int × Text × ResourceKind
  | sources => Int

/-- What tells a row of a table from the others. -/
def key : (k : Kind) → k.Value → k.Key
  | repositories => (·.name)
  | files => fileKey
  | services => serviceKey
  | resources => resourceKey
  | attributes => attributeKey
  | sources => Part.owner
  | releases => releaseKey
  | entries => entryKey

/-- The rows that a row refers to: its owner, and the service of a resource. -/
def references : (k : Kind) → k.Value → List (Kind × Int)
  | repositories, _ => []
  | files, f => [(repositories, f.repositoryId)]
  | services, p => [(repositories, p.owner)]
  | resources, p => (repositories, p.owner) :: p.value.service.toList.map (services, ·)
  | attributes, p => [(resources, p.owner)]
  | sources, p => [(resources, p.owner)]
  | releases, p => [(repositories, p.owner)]
  | entries, p => [(releases, p.owner)]

end Kind

namespace Tables

/-- The table with a name. -/
def table (t : Tables) : (k : Kind) → Table k.Value
  | .repositories => t.repositories
  | .files => t.files.toTable
  | .services => t.services
  | .resources => t.resources
  | .attributes => t.attributes
  | .sources => t.sources
  | .releases => t.releases
  | .entries => t.entries

/-- In every table the keys of the rows differ and so do their numbers, and every row that a row
refers to is there. -/
structure Consistent (t : Tables) : Prop where
  keys : ∀ k, (t.table k).rows.Pairwise fun r r' => k.key r.value ≠ k.key r'.value
  numbers : ∀ k, (t.table k).rows.Pairwise fun r r' => r.id ≠ r'.id
  references : ∀ k, ∀ r ∈ (t.table k).rows, ∀ x ∈ k.references r.value,
    ∃ r' ∈ (t.table x.1).rows, r'.id = x.2

variable {t t' t'' : Tables} {n repository resource release : Int}

namespace Valid

theorem sound (h : t.Valid) (k : Kind) : (t.table k).Sound k.key := by
  cases k with
  | repositories => exact h.repositories
  | files => exact h.files
  | services => exact h.services
  | resources => exact h.resources
  | attributes => exact h.attributes
  | sources => exact h.sources
  | releases => exact h.releases
  | entries => exact h.entries

/-- The rows that a row of valid tables refers to are there. -/
theorem references (h : t.Valid) (k : Kind) {r : Row k.Value} (hr : r ∈ (t.table k).rows)
    {x : Kind × Int} (hx : x ∈ k.references r.value) : (t.table x.1).has x.2 = true := by
  cases k with
  | repositories => exact nomatch hx
  | files => exact List.mem_singleton.mp hx ▸ h.filesOwned r hr
  | services => exact List.mem_singleton.mp hx ▸ h.servicesOwned r hr
  | resources =>
    rcases List.mem_cons.mp hx with rfl | hlink
    · exact h.resourcesOwned r hr
    · obtain ⟨s, hs, rfl⟩ := List.mem_map.mp hlink
      exact h.linksThere r hr s (Option.mem_toList.mp hs)
  | attributes => exact List.mem_singleton.mp hx ▸ h.attributesOwned r hr
  | sources => exact List.mem_singleton.mp hx ▸ h.sourcesOwned r hr
  | releases => exact List.mem_singleton.mp hx ▸ h.releasesOwned r hr
  | entries => exact List.mem_singleton.mp hx ▸ h.entriesOwned r hr

theorem consistent (h : t.Valid) : t.Consistent where
  keys k := (h.sound k).keyed
  numbers k := (h.sound k).ascending.imp Int.ne_of_lt
  references k _ hr _ hx := Table.has_iff.mp (h.references k hr hx)

end Valid

end Tables

/-! ### Numbers that are given out -/

/-- A table advances when every row has a number that it had before, or one above all that were
given out before. -/
structure Table.Advances (t t' : Table α) : Prop where
  last : t.last ≤ t'.last
  ids : ∀ r' ∈ t'.rows, t.last < r'.id ∨ ∃ r ∈ t.rows, r.id = r'.id

namespace Table.Advances

variable {t t' t'' : Table α}

theorem refl (t : Table α) : t.Advances t :=
  ⟨Int.le_refl _, fun r hr => Or.inr ⟨r, hr, rfl⟩⟩

theorem trans (h : t.Advances t') (h' : t'.Advances t'') : t.Advances t'' where
  last := Int.le_trans h.last h'.last
  ids r'' hr'' := by
    rcases h'.ids r'' hr'' with hnew | ⟨r', hr', hid⟩
    · exact Or.inl (Int.lt_of_le_of_lt h.last hnew)
    · rw [← hid]
      exact h.ids r' hr'

/-- No number is given out by removing rows. -/
theorem erase (t : Table α) (p : Row α → Bool) : t.Advances (t.erase p) where
  last := Int.le_refl _
  ids r hr := Or.inr ⟨r, List.mem_of_mem_filter hr, rfl⟩

/-- No number is given out by changing values. -/
theorem change (t : Table α) (f : α → α) : t.Advances (t.change f) where
  last := Int.le_refl _
  ids r' hr' := by
    obtain ⟨r, hr, rfl⟩ := List.mem_map.mp hr'
    exact Or.inr ⟨r, hr, rfl⟩

theorem append (t : Table α) (a : α) : t.Advances (t.append a) where
  last := Int.le_of_lt (Int.lt_succ _)
  ids r hr := by
    rcases List.mem_append.mp hr with hold | hnew
    · exact Or.inr ⟨r, hold, rfl⟩
    · rw [List.mem_singleton.mp hnew]
      exact Or.inl (Int.lt_succ _)

theorem putMerging [BEq κ] [LawfulBEq κ] (t : Table α) (key : α → κ) (merge : α → α) (a : α) :
    t.Advances (t.putMerging key merge a).1 := by
  rcases putMerging_cases t key merge a with ⟨-, hput⟩ | ⟨before, r, after, hrows, -, -, hput⟩
  · rw [hput]
    exact append t a
  · rw [hput]
    refine ⟨Int.le_of_lt (Int.lt_succ _), fun r' hr' => Or.inr ?_⟩
    -- the row that was written has the number of `r`, all others are as before
    have hid : r'.id ∈ t.rows.map (·.id) := by
      have hsame : (before ++ ⟨r.id, merge r.value⟩ :: after).map Row.id = t.rows.map Row.id := by
        simp [hrows]
      rw [← hsame]
      exact List.mem_map_of_mem hr'
    simpa using hid

/-- A number that a table gives to a new row was not given to any row before. -/
theorem fresh {key : α → κ} (h : t.Advances t') (h' : t'.Advances t'') (hsound : t.Sound key)
    {r x : Row α} (hr : r ∈ t''.rows) (hnew : ∀ y ∈ t'.rows, y.id ≠ r.id) (hx : x ∈ t.rows) :
    x.id < r.id := by
  rcases h'.ids r hr with hlast | ⟨y, hy, hid⟩
  · have hbound : x.id ≤ t.last := hsound.bounded x hx
    have hmono : t.last ≤ t'.last := h.last
    omega
  · exact absurd hid (hnew y hy)

end Table.Advances

/-- All tables advance. -/
def Tables.Advances (t t' : Tables) : Prop := ∀ k, (t.table k).Advances (t'.table k)

namespace Tables.Advances

variable {t t' t'' : Tables}

theorem refl (t : Tables) : t.Advances t := fun _ => .refl _

theorem trans (h : t.Advances t') (h' : t'.Advances t'') : t.Advances t'' :=
  fun k => (h k).trans (h' k)

end Tables.Advances

/-! ### Upserts -/

/-- After a write under a key, the row with the key has a number, which is the one that it had
before if there was one; rows with other keys are as they were. -/
structure Table.Upserted (key : α → κ) (k : κ) (n : Int) (t t' : Table α) : Prop where
  there : ∃ r ∈ t'.rows, r.id = n ∧ key r.value = k
  kept : ∀ r ∈ t.rows, key r.value = k → r.id = n
  others : ∀ r, key r.value ≠ k → (r ∈ t'.rows ↔ r ∈ t.rows)

namespace Table.Sound

variable [BEq κ] [LawfulBEq κ] {key : α → κ} {merge : α → α} {t : Table α}

theorem upserted_putMerging (h : Sound key t) (a : α)
    (hmerge : ∀ v, key v = key a → key (merge v) = key a) :
    Upserted key (key a) (t.putMerging key merge a).2 t (t.putMerging key merge a).1 where
  there := by
    obtain ⟨hfound, -⟩ := find?_putMerging (t := t) hmerge
    obtain ⟨hmem, hkey⟩ := (h.putMerging hmerge).find?_eq_some.mp hfound
    exact ⟨_, hmem, rfl, hkey⟩
  kept r hr hkey := by
    obtain ⟨-, hid⟩ := find?_putMerging (t := t) hmerge
    rw [hid, h.find?_eq_some.mpr ⟨hr, hkey⟩]
    rfl
  others r hr := by
    have hfilter := filter_putMerging (t := t) (p := fun x => !(key x.value == key a))
      (fun x hx => by simp [hx]) hmerge
    have hmem (rows : List (Row α)) :
        r ∈ rows.filter (fun x => !(key x.value == key a)) ↔ r ∈ rows := by
      simp [hr]
    rw [← hmem, hfilter, hmem]

end Table.Sound

namespace Tables

/-- After a write under a key of a table the other tables are as they were. -/
structure Upserted (t : Tables) (k : Kind) (key : k.Key) (n : Int) (t' : Tables) : Prop where
  row : Table.Upserted k.key key n (t.table k) (t'.table k)
  elsewhere : ∀ j, j ≠ k → t'.table j = t.table j

/-- The tables with one of them replaced. -/
def replaced (t : Tables) : (k : Kind) → Table k.Value → Tables
  | .repositories, x => { t with repositories := x }
  | .files, x => { t with files := .ofTable x }
  | .services, x => { t with services := x }
  | .resources, x => { t with resources := x }
  | .attributes, x => { t with attributes := x }
  | .sources, x => { t with sources := x }
  | .releases, x => { t with releases := x }
  | .entries, x => { t with entries := x }

@[simp] theorem table_replaced_self (t : Tables) (k : Kind) (x : Table k.Value) :
    (t.replaced k x).table k = x := by
  cases k <;> rfl

theorem table_replaced_of_ne (t : Tables) {j k : Kind} (hjk : j ≠ k) (x : Table k.Value) :
    (t.replaced k x).table j = t.table j := by
  cases k <;> cases j <;> first | rfl | exact absurd rfl hjk

variable {t t' : Tables} {n repository resource release : Int}

theorem advances_replaced {k : Kind} {x : Table k.Value} (h : (t.table k).Advances x) :
    t.Advances (t.replaced k x) := by
  intro j
  by_cases hjk : j = k
  · subst hjk
    simpa using h
  · rw [table_replaced_of_ne t hjk]
    exact .refl _

namespace Valid

/-- Storing a value under its key in one of the tables is an upsert of the key. -/
theorem putMerging_upserts (h : t.Valid) (k : Kind) [BEq k.Key] [LawfulBEq k.Key]
    {merge : k.Value → k.Value} (a : k.Value)
    (hmerge : ∀ v, k.key v = k.key a → k.key (merge v) = k.key a) :
    t.Upserted k (k.key a) ((t.table k).putMerging k.key merge a).2
        (t.replaced k ((t.table k).putMerging k.key merge a).1) ∧
      t.Advances (t.replaced k ((t.table k).putMerging k.key merge a).1) := by
  have hrow := (h.sound k).upserted_putMerging a hmerge
  refine ⟨⟨?_, fun j hj => table_replaced_of_ne t hj _⟩, ?_⟩
  · rwa [table_replaced_self]
  · exact advances_replaced (.putMerging _ _ _ _)

/-! ### The writes -/

theorem putRepository_upserts {r : RepositoryRecord} (h : t.Valid)
    (hput : t.putRepository r = .ok (t', n)) :
    t.Upserted .repositories r.name n t' ∧ t.Advances t' := by
  obtain ⟨-, rfl, rfl⟩ := putRepository_ok hput
  exact h.putMerging_upserts .repositories { r with id := none } fun _ _ => rfl

theorem putFile_upserts {f : RepositoryFile} (h : t.Valid) (hput : t.putFile f = .ok t') :
    ∃ n, t.Upserted .files (fileKey f) n t' ∧ t.Advances t' := by
  obtain ⟨-, -, rfl⟩ := putFile_ok hput
  rw [h.store_eq]
  exact ⟨_, h.putMerging_upserts .files f fun _ _ => rfl⟩

theorem putService_upserts {s : Service} (h : t.Valid)
    (hput : t.putService repository s = .ok (t', n)) :
    t.Upserted .services (repository, s.name) n t' ∧ t.Advances t' := by
  obtain ⟨-, -, rfl, rfl⟩ := putService_ok hput
  exact h.putMerging_upserts .services ⟨repository, .ofService s⟩ fun _ _ => rfl

theorem putResource_upserts {r : Resource} {link : Option Int} (h : t.Valid)
    (hput : t.putResource repository r link = .ok (t', n)) :
    t.Upserted .resources (repository, r.name, r.kind) n t' ∧ t.Advances t' := by
  obtain ⟨-, -, -, rfl, rfl⟩ := putResource_ok hput
  exact h.putMerging_upserts .resources ⟨repository, .ofResource r link⟩ fun _ _ => rfl

theorem putAttribute_upserts {a : Attribute} (h : t.Valid)
    (hput : t.putAttribute resource a = .ok t') :
    ∃ n, t.Upserted .attributes (resource, a.name) n t' ∧ t.Advances t' := by
  obtain ⟨-, -, rfl⟩ := putAttribute_ok hput
  exact ⟨_, h.putMerging_upserts .attributes ⟨resource, a⟩ fun _ _ => rfl⟩

theorem putSource_upserts {x : SnippetBundle} (h : t.Valid)
    (hput : t.putSource resource x = .ok t') :
    ∃ n, t.Upserted .sources resource n t' ∧ t.Advances t' := by
  obtain ⟨-, -, rfl⟩ := putSource_ok hput
  exact ⟨_, h.putMerging_upserts .sources ⟨resource, x⟩ fun _ _ => rfl⟩

theorem putRelease_upserts {r : ReleaseRecord} (h : t.Valid)
    (hput : t.putRelease repository r = .ok (t', n)) :
    t.Upserted .releases (repository, r.version) n t' ∧ t.Advances t' := by
  obtain ⟨-, -, rfl, rfl⟩ := putRelease_ok hput
  exact h.putMerging_upserts .releases ⟨repository, { r with id := none }⟩ fun _ _ => rfl

end Valid

/-! ### Replacing and removing rows -/

theorem addEntry_advances {e : Entry} (hadd : t.addEntry release e = .ok t') :
    t.Advances t' := by
  obtain ⟨-, -, -, rfl⟩ := addEntry_ok hadd
  exact advances_replaced (k := .entries) (.append t.entries _)

private theorem addEntries_advances {es : List Entry}
    (hadd : es.foldlM (fun t e => t.addEntry release e) t = .ok t') : t.Advances t' := by
  induction es generalizing t with
  | nil =>
    cases hadd
    exact .refl _
  | cons e es ih =>
    obtain ⟨u, hu, hadd⟩ := except_bind_eq_ok.mp ((List.foldlM_cons ..).symm.trans hadd)
    exact (addEntry_advances hu).trans (ih hadd)

/-- Entries that are replaced leave their numbers behind. -/
theorem replaceEntries_advances {es : List Entry}
    (hreplace : t.replaceEntries release es = .ok t') : t.Advances t' := by
  obtain ⟨-, hadd⟩ := replaceEntries_ok hreplace
  have hcleared : t.Advances { t with entries := t.entries.erase (·.value.owner == release) } :=
    advances_replaced (k := .entries) (.erase t.entries _)
  exact hcleared.trans (addEntries_advances hadd)

/-- No number is given out when a repository is emptied. -/
private theorem emptied_advances (t : Tables) (id : Int) : t.Advances (t.emptied id) := by
  intro k
  cases k with
  | repositories => exact .refl _
  | resources => exact (Table.Advances.erase t.resources _).trans (.change _ _)
  | files | services | attributes | sources | releases | entries => exact .erase _ _

theorem clearRepository_advances (hclear : t.clearRepository n = .ok t') : t.Advances t' := by
  obtain ⟨-, rfl⟩ := clearRepository_ok hclear
  exact emptied_advances t n

theorem Valid.deleteRepository_advances (h : t.Valid) (hdelete : t.deleteRepository n = .ok t') :
    t.Advances t' := by
  obtain ⟨-, rfl⟩ := h.deleteRepository_ok hdelete
  exact (emptied_advances t n).trans
    (advances_replaced (t := t.emptied n) (k := .repositories) (.erase t.repositories _))

end Tables

end ProviderCatalog.Store
