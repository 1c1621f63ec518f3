import ProviderCatalog.Proofs.Store.Validity

/-!
# Tables that host others

A repository can be kept in tables of its own, as the first one there, or behind the rows of other
repositories. Then its rows have other numbers, but all numbers of a table are moved by the same
amount, since every write uses one number up. So the tables with the other repositories are the host
of the tables of its own: the rows of the guest, moved, follow those of the host. Every write for
the repository is the same write to the guest.

## Main definitions

* `Table.hosting`, `Tables.hosting`: tables that host others.
* `Tables.CanHost`: there is a record for the guest, and nothing belongs to it.
* `Tables.InRange`: the numbers that rows are referred to by fit into a column.

## Main results

* `Table.put_hosting`: storing a value in a host is storing it in the guest.
* `Tables.CanHost.putFile` and the like: so is every write for the repository.
-/

namespace ProviderCatalog.Store

open Schema (Attribute Resource Service SnippetBundle)
open Changelog (Entry ReleaseRecord)

variable {α κ : Type}

namespace Table

/-- The rows of a guest behind those of a host, with numbers that follow the last one of the host
and with values as they are in the host. -/
def hosting (host : Table α) (move : α → α) (guest : Table α) : Table α :=
  ⟨host.last + guest.last, host.rows ++ guest.rows.map fun r => ⟨host.last + r.id, move r.value⟩⟩

variable {host guest : Table α} {move : α → α} {a : α} {n : Int}

theorem next_hosting : (host.hosting move guest).next = host.last + guest.next :=
  Int.add_assoc _ _ _

theorem append_hosting (host guest : Table α) (move : α → α) (a : α) :
    (host.hosting move guest).append (move a) = host.hosting move (guest.append a) := by
  rw [append, next_hosting, hosting, hosting, append, List.map_append, List.append_assoc]
  rfl

theorem values_hosting :
    (host.hosting move guest).values = host.values ++ guest.values.map move := by
  rw [values, hosting, List.map_append, List.map_map, values, values, List.map_map]
  rfl

section Writing

variable [BEq κ] [LawfulBEq κ] {key : α → κ}

private theorem putRow_append {before : List (Row α)} (merge : α → α) (n : Int)
    (rows : List (Row α)) (hbefore : ∀ r ∈ before, key r.value ≠ key a) :
    putRow key merge a n (before ++ rows) = before ++ putRow key merge a n rows ∧
      idOf key a n (before ++ rows) = idOf key a n rows := by
  induction before with
  | nil => exact ⟨rfl, rfl⟩
  | cons r before ih =>
    obtain ⟨hr, hbefore⟩ := List.forall_mem_cons.mp hbefore
    obtain ⟨hput, hid⟩ := ih hbefore
    have hne : (key r.value == key a) = false := beq_eq_false_iff_ne.mpr hr
    simp only [List.cons_append, putRow, idOf, hne, Bool.false_eq_true, if_false, hput, hid,
      and_self]

private theorem putRow_map (move : α → α) (shift n : Int) {rows : List (Row α)}
    (hkey : ∀ r ∈ rows, key (move r.value) = key (move a) ↔ key r.value = key a) :
    putRow key (fun _ => move a) (move a) (shift + n)
        (rows.map fun r => ⟨shift + r.id, move r.value⟩) =
      (putRow key (fun _ => a) a n rows).map (fun r => ⟨shift + r.id, move r.value⟩) ∧
    idOf key (move a) (shift + n) (rows.map fun r => ⟨shift + r.id, move r.value⟩) =
      shift + idOf key a n rows := by
  induction rows with
  | nil => exact ⟨rfl, rfl⟩
  | cons r rows ih =>
    obtain ⟨hr, hkey⟩ := List.forall_mem_cons.mp hkey
    obtain ⟨hput, hid⟩ := ih hkey
    have hsame : (key (move r.value) == key (move a)) = (key r.value == key a) :=
      Bool.eq_iff_iff.mpr (by rw [beq_iff_eq, beq_iff_eq, hr])
    simp only [List.map_cons, putRow, idOf, hsame]
    cases key r.value == key a with
    | true => exact ⟨rfl, rfl⟩
    | false => exact ⟨congrArg (_ :: ·) hput, hid⟩

/-- Storing a value in a host is storing it in the guest, if no row of the host has the key and the
keys of the guest are told apart in the host as well. -/
theorem put_hosting (host guest : Table α) (move : α → α) (key : α → κ) (a : α)
    (hhost : ∀ r ∈ host.rows, key r.value ≠ key (move a))
    (hkey : ∀ r ∈ guest.rows, key (move r.value) = key (move a) ↔ key r.value = key a) :
    (host.hosting move guest).put key (move a) =
      (host.hosting move (guest.put key a).1, host.last + (guest.put key a).2) := by
  obtain ⟨hrows, hid⟩ := putRow_append (fun _ => move a) (host.hosting move guest).next
    (guest.rows.map fun r => ⟨host.last + r.id, move r.value⟩) hhost
  obtain ⟨hrows', hid'⟩ := putRow_map move host.last guest.next hkey
  rw [next_hosting] at hrows hid
  simp only [put, putMerging, next_hosting]
  rw [hosting, hrows, hid, hrows', hid']
  rfl

end Writing

/-- Rows of a host and of its guest are numbered in ascending order. -/
theorem ascending_hosting {key : α → κ} (hhost : host.Sound key) (hguest : guest.Sound key) :
    (host.hosting move guest).rows.Pairwise (·.id < ·.id) := by
  rw [hosting, List.pairwise_append, List.pairwise_map]
  refine ⟨hhost.ascending, hguest.ascending.imp fun h => Int.add_lt_add_left h _, ?_⟩
  intro r hr x hx
  obtain ⟨y, hy, rfl⟩ := List.mem_map.mp hx
  have hbound := hhost.bounded r hr
  have hpositive := hguest.positive y hy
  dsimp only
  omega

theorem bounded_hosting {key : α → κ} (hhost : host.Sound key) (hguest : guest.Sound key) :
    ∀ r ∈ (host.hosting move guest).rows, r.id ≤ (host.hosting move guest).last := by
  intro r hr
  rcases List.mem_append.mp hr with hr | hr
  · exact Int.le_trans (hhost.bounded r hr) (Int.le_add_of_nonneg_right hguest.counting)
  · obtain ⟨y, hy, rfl⟩ := List.mem_map.mp hr
    exact Int.add_le_add_left (hguest.bounded y hy) _

/-- Rows are found in a host by what no row of the host meets as they are found in the guest. -/
theorem filter_hosting {p q : Row α → Bool} (hhost : ∀ r ∈ host.rows, p r = false)
    (hguest : ∀ r ∈ guest.rows, p ⟨host.last + r.id, move r.value⟩ = q r) :
    (host.hosting move guest).rows.filter p =
      (guest.rows.filter q).map fun r => ⟨host.last + r.id, move r.value⟩ := by
  have hnone : host.rows.filter p = [] := List.filter_eq_nil_iff.mpr fun r hr => by
    rw [hhost r hr]
    exact Bool.false_ne_true
  rw [hosting, List.filter_append, hnone, List.nil_append, List.filter_map]
  exact congrArg _ (List.filter_congr hguest)

theorem erase_hosting {p q : Row α → Bool} (hhost : ∀ r ∈ host.rows, p r = false)
    (hguest : ∀ r ∈ guest.rows, p ⟨host.last + r.id, move r.value⟩ = q r) :
    (host.hosting move guest).erase p = host.hosting move (guest.erase q) := by
  have hall : host.rows.filter (!p ·) = host.rows := List.filter_eq_self.mpr fun r hr => by
    rw [hhost r hr]
    rfl
  have hsame : (guest.rows.map fun r => (⟨host.last + r.id, move r.value⟩ : Row α)).filter (!p ·) =
      (guest.rows.filter (!q ·)).map fun r => ⟨host.last + r.id, move r.value⟩ := by
    rw [List.filter_map]
    exact congrArg _ (List.filter_congr fun r hr => congrArg _ (hguest r hr))
  rw [erase, hosting, List.filter_append, hall, hsame]
  rfl

/-- The numbers of the guest are not those of the host. -/
theorem find_hosting (hbounded : ∀ r ∈ host.rows, r.id ≤ host.last) (hn : 0 < n) :
    (host.hosting move guest).rows.find? (·.id == host.last + n) =
      (guest.rows.find? (·.id == n)).map fun r => ⟨host.last + r.id, move r.value⟩ := by
  have hnone : host.rows.find? (·.id == host.last + n) = none :=
    List.find?_eq_none.mpr fun r hr hid => by
      have hle := hbounded r hr
      rw [beq_iff_eq.mp hid] at hle
      omega
  rw [hosting, List.find?_append, hnone, Option.none_or, List.find?_map]
  refine congrArg _ (congrArg (List.find? · _) (funext fun r => ?_))
  exact Bool.eq_iff_iff.mpr (by simp)

theorem get?_hosting (hbounded : ∀ r ∈ host.rows, r.id ≤ host.last) (hn : 0 < n) :
    (host.hosting move guest).get? (host.last + n) = (guest.get? n).map move := by
  rw [get?, find_hosting hbounded hn, Option.map_map, get?, Option.map_map]
  rfl

theorem has_hosting (hbounded : ∀ r ∈ host.rows, r.id ≤ host.last) (hn : 0 < n) :
    (host.hosting move guest).has (host.last + n) = guest.has n := by
  rw [has, has, ← List.isSome_find?, ← List.isSome_find?, find_hosting hbounded hn,
    Option.isSome_map]

theorem require_hosting (hbounded : ∀ r ∈ host.rows, r.id ≤ host.last) (hn : 0 < n) :
    (host.hosting move guest).require (host.last + n) = guest.require n := by
  rw [require, require, has_hosting hbounded hn]

/-- Rows that are owned belong to rows that are there already. -/
theorem OwnedBy.owner_ne {β : Type} {table : Table α} {owner : α → Int} {owners : Table β}
    {key : β → κ} (howned : table.OwnedBy owner owners) (hsound : owners.Sound key) {r : Row α}
    (hr : r ∈ table.rows) (hn : 0 < n) : owner r.value ≠ owners.last + n := by
  obtain ⟨x, hx, hid⟩ := has_iff.mp (howned r hr)
  have hle := hsound.bounded x hx
  omega

/-- A number of the guest fits as it is moved by the host. -/
structure CanMove (host : Table α) (n : Int) : Prop where
  positive : 0 < n
  moved : (Param.number (host.last + n)).fault? = none

/-- A number that fits as it is moved fits. -/
theorem CanMove.fits (h : host.CanMove n) (hcounting : 0 ≤ host.last) :
    (Param.number n).fault? = none := by
  obtain ⟨hpositive, hmoved⟩ := h
  rw [Param.fits_iff] at hmoved ⊢
  omega

theorem CanMove.bind_eq (h : host.CanMove n) (hcounting : 0 ≤ host.last) (ps : List Param) :
    Param.bind (.number (host.last + n) :: ps) = Param.bind (.number n :: ps) :=
  (Param.bind_of_fits h.moved ps).trans (Param.bind_of_fits (h.fits hcounting) ps).symm

/-- The number of a row of the guest fits as it is moved, if that of the last row does. -/
theorem canMove_of_mem {key : α → κ} (hcounting : 0 ≤ host.last) (hsound : guest.Sound key)
    {r : Row α} (hr : r ∈ guest.rows) (hlast : host.last + guest.last < 2 ^ 63) :
    host.CanMove r.id := by
  have hpositive := hsound.positive r hr
  have hbounded := hsound.bounded r hr
  refine ⟨hpositive, Param.fits_iff.mpr ?_⟩
  omega

/-- A number in the host stands for a number of the guest. -/
def StandsFor (host : Table α) (m n : Int) : Prop := m = host.last + n ∧ host.CanMove n

end Table

/-! ### Tables in tables -/

/-- A file whose repository has a number that is moved. -/
def moveFile (offset : Int) (f : RepositoryFile) : RepositoryFile :=
  { f with repositoryId := offset + f.repositoryId }

/-- A value whose owner has a number that is moved. -/
def Part.move (offset : Int) (p : Part α) : Part α := ⟨offset + p.owner, p.value⟩

/-- A resource whose owner and whose service have numbers that are moved. -/
def moveResource (offset services : Int) (p : Part StoredResource) : Part StoredResource :=
  ⟨offset + p.owner, { p.value with service := p.value.service.map (services + ·) }⟩

namespace Tables

/-- The rows of a guest behind those of a host, with its records left out; the numbers of its
repositories are moved by an offset. -/
def hosting (host : Tables) (offset : Int) (guest : Tables) : Tables where
  repositories := host.repositories
  files := .ofTable (host.files.hosting (moveFile offset) guest.files.toTable)
  services := host.services.hosting (Part.move offset) guest.services
  resources := host.resources.hosting (moveResource offset host.services.last) guest.resources
  attributes := host.attributes.hosting (Part.move host.resources.last) guest.attributes
  sources := host.sources.hosting (Part.move host.resources.last) guest.sources
  releases := host.releases.hosting (Part.move offset) guest.releases
  entries := host.entries.hosting (Part.move host.releases.last) guest.entries

/-- Tables can host the first repository of others when they have a record for it, under a number
that fits, and when nothing belongs to the record. -/
structure CanHost (host : Tables) (offset : Int) : Prop where
  valid : host.Valid
  there : host.repositories.has (offset + 1) = true
  fits : (Param.number (offset + 1)).fault? = none
  files : ∀ r ∈ host.files.rows, r.value.repositoryId ≠ offset + 1
  services : ∀ r ∈ host.services.rows, r.value.owner ≠ offset + 1
  resources : ∀ r ∈ host.resources.rows, r.value.owner ≠ offset + 1
  releases : ∀ r ∈ host.releases.rows, r.value.owner ≠ offset + 1

/-- All numbers of repositories, services, resources and releases fit into a column. -/
structure InRange (t : Tables) : Prop where
  repositories : t.repositories.last < 2 ^ 63
  services : t.services.last < 2 ^ 63
  resources : t.resources.last < 2 ^ 63
  releases : t.releases.last < 2 ^ 63

instance (t : Tables) : Decidable t.InRange :=
  decidable_of_iff (t.repositories.last < 2 ^ 63 ∧ t.services.last < 2 ^ 63 ∧
      t.resources.last < 2 ^ 63 ∧ t.releases.last < 2 ^ 63)
    ⟨fun ⟨h, h', h'', h'''⟩ => ⟨h, h', h'', h'''⟩, fun h => ⟨h.1, h.2, h.3, h.4⟩⟩

variable {t host guest : Tables} {offset n : Int}

namespace CanHost

/-- The number of the record fits in both. -/
theorem bind_eq (h : host.CanHost offset) (ps : List Param) :
    Param.bind (.number (offset + 1) :: ps) = Param.bind (.number 1 :: ps) :=
  (Param.bind_of_fits h.fits ps).trans (Param.bind_of_fits Param.fits_one ps).symm

/-! ### Writes -/

theorem putFile (h : host.CanHost offset) (hvalid : guest.Valid)
    (hguest : guest.repositories.has 1 = true) {f : RepositoryFile} (hf : f.repositoryId = 1) :
    (host.hosting offset guest).putFile (moveFile offset f) =
      (guest.putFile f).map (host.hosting offset) := by
  obtain ⟨m, path, name, type, content, size⟩ := f
  obtain rfl : m = 1 := hf
  have hput : (host.hosting offset guest).files.put fileKey
        ⟨offset + 1, path, name, type, content, size⟩ =
      (host.files.hosting (moveFile offset)
          (guest.files.put fileKey ⟨1, path, name, type, content, size⟩).1,
        host.files.last + (guest.files.put fileKey ⟨1, path, name, type, content, size⟩).2) :=
    Table.put_hosting host.files.toTable guest.files.toTable (moveFile offset) fileKey
      ⟨1, path, name, type, content, size⟩
      (fun r hr hkey => h.files r hr (congrArg Prod.fst hkey)) fun r _ => by
        simp only [fileKey, moveFile, Prod.mk.injEq, Int.add_right_inj]
  have hstore := FileTable.store_eq (t := (host.hosting offset guest).files)
    (Table.ascending_hosting h.valid.files hvalid.files)
    (Table.bounded_hosting h.valid.files hvalid.files) rfl
    ⟨offset + 1, path, name, type, content, size⟩
  change (host.hosting offset guest).putFile ⟨offset + 1, path, name, type, content, size⟩ = _
  rw [putFile_eq (t := guest) (f := ⟨1, path, name, type, content, size⟩) hguest,
    putFile_eq (t := host.hosting offset guest) (f := ⟨offset + 1, path, name, type, content, size⟩)
      h.there, hstore, hput, Param.ofFile, Param.ofFile, h.bind_eq]
  cases Param.bind _ <;> rfl

theorem putService (h : host.CanHost offset) (hguest : guest.repositories.has 1 = true)
    (s : Service) :
    (host.hosting offset guest).putService (offset + 1) s = (guest.putService 1 s).map fun x =>
      (host.hosting offset x.1, host.services.last + x.2) := by
  have hput : (host.hosting offset guest).services.put serviceKey ⟨offset + 1, .ofService s⟩ =
      (host.services.hosting (Part.move offset) (guest.services.put serviceKey ⟨1, .ofService s⟩).1,
        host.services.last + (guest.services.put serviceKey ⟨1, .ofService s⟩).2) :=
    Table.put_hosting host.services guest.services (Part.move offset) serviceKey ⟨1, .ofService s⟩
      (fun x hx hkey => h.services x hx (congrArg Prod.fst hkey)) fun x _ => by
        simp only [serviceKey, Part.move, Prod.mk.injEq, Int.add_right_inj]
  rw [putService_eq hguest, putService_eq (t := host.hosting offset guest) h.there, hput,
    Param.ofService, Param.ofService, h.bind_eq]
  cases Param.bind _ <;> rfl

/-- A resource is linked to a service of the guest. -/
theorem putResource (h : host.CanHost offset) (hguest : guest.repositories.has 1 = true)
    (r : Resource) {link : Option Int} (hlink : ∀ n ∈ link, host.services.CanMove n) :
    (host.hosting offset guest).putResource (offset + 1) r (link.map (host.services.last + ·)) =
      (guest.putResource 1 r link).map fun x =>
        (host.hosting offset x.1, host.resources.last + x.2) := by
  have hput : (host.hosting offset guest).resources.put resourceKey
        ⟨offset + 1, .ofResource r (link.map (host.services.last + ·))⟩ =
      (host.resources.hosting (moveResource offset host.services.last)
          (guest.resources.put resourceKey ⟨1, .ofResource r link⟩).1,
        host.resources.last + (guest.resources.put resourceKey ⟨1, .ofResource r link⟩).2) :=
    Table.put_hosting host.resources guest.resources (moveResource offset host.services.last)
      resourceKey ⟨1, .ofResource r link⟩
      (fun x hx hkey => h.resources x hx (congrArg Prod.fst hkey)) fun x _ => by
        simp only [resourceKey, moveResource, Prod.mk.injEq, Int.add_right_inj]
  have hbind : Param.bind (Param.ofResource
        ⟨offset + 1, .ofResource r (link.map (host.services.last + ·))⟩) =
      Param.bind (Param.ofResource ⟨1, .ofResource r link⟩) := by
    cases link with
    | none => exact h.bind_eq _
    | some n =>
      have hn := hlink n rfl
      exact (Param.bind_of_two_fit h.fits hn.moved _).trans
        (Param.bind_of_two_fit Param.fits_one (hn.fits h.valid.services.counting) _).symm
  have hrequire : (link.map (host.services.last + ·)).elim (.ok ())
        (host.hosting offset guest).services.require =
      link.elim (.ok ()) guest.services.require := by
    cases link with
    | none => rfl
    | some n => exact Table.require_hosting h.valid.services.bounded (hlink n rfl).positive
  rw [putResource_eq hguest, putResource_eq (t := host.hosting offset guest) h.there, hbind,
    hrequire, hput]
  cases Param.bind _ with
  | error e => rfl
  | ok _ => cases link.elim (.ok ()) guest.services.require <;> rfl

theorem putRelease (h : host.CanHost offset) (hguest : guest.repositories.has 1 = true)
    (r : ReleaseRecord) :
    (host.hosting offset guest).putRelease (offset + 1) r = (guest.putRelease 1 r).map fun x =>
      (host.hosting offset x.1, host.releases.last + x.2) := by
  have hput : (host.hosting offset guest).releases.put releaseKey
        ⟨offset + 1, { r with id := none }⟩ =
      (host.releases.hosting (Part.move offset)
          (guest.releases.put releaseKey ⟨1, { r with id := none }⟩).1,
        host.releases.last + (guest.releases.put releaseKey ⟨1, { r with id := none }⟩).2) :=
    Table.put_hosting host.releases guest.releases (Part.move offset) releaseKey
      ⟨1, { r with id := none }⟩
      (fun x hx hkey => h.releases x hx (congrArg Prod.fst hkey)) fun x _ => by
        simp only [releaseKey, Part.move, Prod.mk.injEq, Int.add_right_inj]
  rw [putRelease_eq hguest, putRelease_eq (t := host.hosting offset guest) h.there, hput,
    Param.ofRelease, Param.ofRelease, h.bind_eq]
  cases Param.bind _ <;> rfl

/-! ### Writes below resources and releases -/

theorem putAttribute (h : host.CanHost offset) (hn : host.resources.CanMove n) (a : Attribute) :
    (host.hosting offset guest).putAttribute (host.resources.last + n) a =
      (guest.putAttribute n a).map (host.hosting offset) := by
  have hput : (host.hosting offset guest).attributes.put attributeKey ⟨host.resources.last + n, a⟩ =
      (host.attributes.hosting (Part.move host.resources.last)
          (guest.attributes.put attributeKey ⟨n, a⟩).1,
        host.attributes.last + (guest.attributes.put attributeKey ⟨n, a⟩).2) :=
    Table.put_hosting host.attributes guest.attributes (Part.move host.resources.last)
      attributeKey ⟨n, a⟩
      (fun x hx hkey => h.valid.attributesOwned.owner_ne h.valid.resources hx hn.positive
        (congrArg Prod.fst hkey)) fun x _ => by
        simp only [attributeKey, Part.move, Prod.mk.injEq, Int.add_right_inj]
  have hrequire : (host.hosting offset guest).resources.require (host.resources.last + n) =
      guest.resources.require n := Table.require_hosting h.valid.resources.bounded hn.positive
  have hbind : Param.bind (Param.ofAttribute ⟨host.resources.last + n, a⟩) =
      Param.bind (Param.ofAttribute ⟨n, a⟩) := hn.bind_eq h.valid.resources.counting _
  rw [putAttribute_eq, putAttribute_eq, hbind, hrequire, hput]
  cases Param.bind _ with
  | error e => rfl
  | ok _ => cases guest.resources.require n <;> rfl

theorem putSource (h : host.CanHost offset) (hn : host.resources.CanMove n) (x : SnippetBundle) :
    (host.hosting offset guest).putSource (host.resources.last + n) x =
      (guest.putSource n x).map (host.hosting offset) := by
  have hput : (host.hosting offset guest).sources.put Part.owner ⟨host.resources.last + n, x⟩ =
      (host.sources.hosting (Part.move host.resources.last)
          (guest.sources.put Part.owner ⟨n, x⟩).1,
        host.sources.last + (guest.sources.put Part.owner ⟨n, x⟩).2) :=
    Table.put_hosting host.sources guest.sources (Part.move host.resources.last) Part.owner ⟨n, x⟩
      (fun r hr => h.valid.sourcesOwned.owner_ne h.valid.resources hr hn.positive) fun r _ => by
        simp only [Part.move, Int.add_right_inj]
  have hrequire : (host.hosting offset guest).resources.require (host.resources.last + n) =
      guest.resources.require n := Table.require_hosting h.valid.resources.bounded hn.positive
  have hbind : Param.bind (Param.ofSource ⟨host.resources.last + n, x⟩) =
      Param.bind (Param.ofSource ⟨n, x⟩) := hn.bind_eq h.valid.resources.counting _
  rw [putSource_eq, putSource_eq, hbind, hrequire, hput]
  cases Param.bind _ with
  | error e => rfl
  | ok _ => cases guest.resources.require n <;> rfl

private theorem addEntry (h : host.CanHost offset) (hn : host.releases.CanMove n) (e : Entry) :
    (host.hosting offset guest).addEntry (host.releases.last + n) e =
      (guest.addEntry n e).map (host.hosting offset) := by
  have hbind : Param.bind (Param.ofEntry ⟨host.releases.last + n, e⟩) =
      Param.bind (Param.ofEntry ⟨n, e⟩) := hn.bind_eq h.valid.releases.counting _
  have hrequire : (host.hosting offset guest).releases.require (host.releases.last + n) =
      guest.releases.require n := Table.require_hosting h.valid.releases.bounded hn.positive
  have hhost : (host.entries.values.any fun p =>
      p.owner == host.releases.last + n && p.value.key == e.key) = false := by
    refine List.any_eq_false.mpr fun p hp hkey => ?_
    obtain ⟨r, hr, rfl⟩ := List.mem_map.mp hp
    exact h.valid.entriesOwned.owner_ne h.valid.releases hr hn.positive
      (beq_iff_eq.mp (Bool.and_eq_true_iff.mp hkey).1)
  have hsame : ((host.hosting offset guest).entries.values.any fun p =>
      p.owner == host.releases.last + n && p.value.key == e.key) =
      guest.entries.values.any fun p => p.owner == n && p.value.key == e.key := by
    have hvalues : (host.hosting offset guest).entries.values =
        host.entries.values ++ guest.entries.values.map (Part.move host.releases.last) :=
      Table.values_hosting
    rw [hvalues, List.any_append, hhost, Bool.false_or, List.any_map]
    refine congrArg (List.any guest.entries.values) (funext fun p => congrArg (· && _) ?_)
    exact Bool.eq_iff_iff.mpr (by simp only [Part.move, beq_iff_eq, Int.add_right_inj])
  have happend : (host.hosting offset guest).entries.append ⟨host.releases.last + n, e⟩ =
      host.entries.hosting (Part.move host.releases.last) (guest.entries.append ⟨n, e⟩) :=
    Table.append_hosting host.entries guest.entries (Part.move host.releases.last) ⟨n, e⟩
  rw [addEntry_eq, addEntry_eq, hbind, hrequire, hsame, happend]
  cases Param.bind _ with
  | error e => rfl
  | ok _ =>
    cases guest.entries.values.any fun p => p.owner == n && p.value.key == e.key with
    | true => rfl
    | false => cases guest.releases.require n <;> rfl

private theorem addEntries (h : host.CanHost offset) (hn : host.releases.CanMove n)
    (es : List Entry) (guest : Tables) :
    es.foldlM (fun t e => Tables.addEntry t (host.releases.last + n) e)
        (host.hosting offset guest) =
      (es.foldlM (fun t e => Tables.addEntry t n e) guest).map (host.hosting offset) := by
  induction es generalizing guest with
  | nil => rfl
  | cons e es ih =>
    rw [List.foldlM_cons, List.foldlM_cons, h.addEntry hn]
    cases guest.addEntry n e with
    | error f => rfl
    | ok u => exact ih u

theorem replaceEntries (h : host.CanHost offset) (hn : host.releases.CanMove n)
    (es : List Entry) :
    (host.hosting offset guest).replaceEntries (host.releases.last + n) es =
      (guest.replaceEntries n es).map (host.hosting offset) := by
  have herase : (host.hosting offset guest).entries.erase
        (·.value.owner == host.releases.last + n) =
      host.entries.hosting (Part.move host.releases.last)
        (guest.entries.erase (·.value.owner == n)) := by
    refine Table.erase_hosting (fun r hr => beq_eq_false_iff_ne.mpr ?_) fun r _ => ?_
    · exact h.valid.entriesOwned.owner_ne h.valid.releases hr hn.positive
    · exact Bool.eq_iff_iff.mpr (by simp only [Part.move, beq_iff_eq, Int.add_right_inj])
  have hadd := h.addEntries hn es { guest with entries := guest.entries.erase (·.value.owner == n) }
  rw [Tables.replaceEntries, Tables.replaceEntries, Param.bind_of_fits hn.moved,
    Param.bind_of_fits (hn.fits h.valid.releases.counting), herase]
  exact hadd

end CanHost

end Tables

end ProviderCatalog.Store
