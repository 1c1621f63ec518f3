import ProviderCatalog.Proofs.Store.Hosting
import ProviderCatalog.Proofs.Store.Emptying
import ProviderCatalog.Store.Holdings

/-!
# Reading what is hosted

What is read for a repository from a host is what is read from the guest, with its numbers moved.
The rows of the host belong to others, and the order in which rows are read does not depend on
numbers. A repository that is new to the tables owns no rows, and neither does one that was cleared:
such tables are ready to host the rows of the repository. A host and its guest hold the same about
the repository, numbers aside: files, services, resources with their attributes, sources and
services, and releases with their entries.

## Main definitions

* `Tables.Guest`: the tables of a repository of its own.
* `Tables.Bare`: the tables have the record of a repository, and nothing that belongs to it.
* `Holdings.unnumbered`: holdings without the numbers of rows.

## Main results

* `Tables.CanHost.filesOf` and the like: what is read from a host.
* `Tables.Bare.of_new`, `Tables.Bare.of_clear`: a new repository, and one that was cleared.
* `Tables.Bare.canHost`, `Tables.Bare.hosting_alone`: such tables as hosts and as guests.
* `Tables.CanHost.holdings`: both can be read, and are the same without numbers but for the record.
-/

namespace ProviderCatalog.Store

open Schema (Attribute Resource Service SnippetBundle)
open Changelog (Entry ReleaseRecord)

variable {α β : Type}

namespace Table

variable {host guest : Table α} {move : α → α} {p q : α → Bool}

private theorem select_hosting (hhost : ∀ r ∈ host.rows, p r.value = false)
    (hmove : ∀ a, p (move a) = q a) :
    (host.hosting move guest).select p =
      (guest.select q).map fun r => ⟨host.last + r.id, move r.value⟩ :=
  filter_hosting hhost fun r _ => hmove r.value

private theorem find?_hosting (hhost : ∀ r ∈ host.rows, p r.value = false)
    (hmove : ∀ a, p (move a) = q a) :
    (host.hosting move guest).find? p =
      (guest.find? q).map fun r => ⟨host.last + r.id, move r.value⟩ := by
  rw [find?, find?, ← List.head?_filter, ← List.head?_filter,
    filter_hosting hhost fun r _ => hmove r.value, List.head?_map]

end Table

namespace Tables

/-- A release with its number moved. -/
def moveRelease (releases : Int) (r : ReleaseRecord) : ReleaseRecord :=
  { r with id := r.id.map (releases + ·) }

variable {host guest : Tables} {offset n : Int} {name path : Text}

private theorem beq_moved (offset : Int) (a b : Int) : (offset + a == offset + b) = (a == b) :=
  Bool.eq_iff_iff.mpr (by simp only [beq_iff_eq, Int.add_right_inj])

namespace CanHost

/-- The files of the repository, and the file at a path of it. -/
theorem filesOf (h : host.CanHost offset) :
    (host.hosting offset guest).filesOf (offset + 1) =
      (guest.filesOf 1).map (List.map (moveFile offset)) := by
  have hselect : (host.hosting offset guest).files.select (·.repositoryId == offset + 1) =
      (guest.files.select (·.repositoryId == 1)).map fun r =>
        ⟨host.files.last + r.id, moveFile offset r.value⟩ :=
    Table.select_hosting (fun r hr => beq_eq_false_iff_ne.mpr (h.files r hr)) fun f =>
      beq_moved offset f.repositoryId 1
  have hsorted (fs : List RepositoryFile) :
      (fs.map (moveFile offset)).mergeSort (fun a b => precedes a.path b.path) =
        (fs.mergeSort fun a b => precedes a.path b.path).map (moveFile offset) :=
    (List.map_mergeSort (f := moveFile offset) (l := fs) fun _ _ _ _ => rfl).symm
  rw [Tables.filesOf, Tables.filesOf, Param.bind_of_fits h.fits, Param.bind_of_fits Param.fits_one,
    hselect]
  refine congrArg Except.ok ?_
  generalize guest.files.select (·.repositoryId == 1) = rows
  have hvalues : (rows.map fun r => (⟨host.files.last + r.id, moveFile offset r.value⟩ :
      Row RepositoryFile)).map (·.value) = (rows.map (·.value)).map (moveFile offset) := by
    rw [List.map_map, List.map_map]
    rfl
  rw [hvalues, hsorted, List.map_map, List.map_map]
  rfl

theorem file? (h : host.CanHost offset) (hhost : host.Numbered name (offset + 1))
    (hguest : guest.Numbered name 1) (path : Text) :
    (host.hosting offset guest).file? name path =
      (guest.file? name path).map (Option.map (moveFile offset)) := by
  obtain ⟨x, hx, hxid⟩ := hhost
  obtain ⟨y, hy, hyid⟩ := hguest
  have hfind : (host.hosting offset guest).files.find?
        (fun f => f.repositoryId == offset + 1 && f.path == path) =
      (guest.files.find? fun f => f.repositoryId == 1 && f.path == path).map fun r =>
        ⟨host.files.last + r.id, moveFile offset r.value⟩ := by
    refine Table.find?_hosting (fun r hr => ?_) fun f => ?_
    · rw [beq_eq_false_iff_ne.mpr (h.files r hr), Bool.false_and]
    · exact congrArg (· && f.path == path) (beq_moved offset f.repositoryId 1)
  rw [Tables.file?, Tables.file?]
  cases Param.bind [.text name, .text path] with
  | error e => rfl
  | ok _ =>
    have hx' : (host.hosting offset guest).repositories.find? (·.name == name) = some x := hx
    have hy' : guest.repositories.find? (·.name == name) = some y := hy
    rw [hx', hy']
    dsimp only
    rw [hxid, hyid, hfind]
    cases guest.files.find? fun f => f.repositoryId == 1 && f.path == path <;> rfl

theorem servicesOf (h : host.CanHost offset) :
    (host.hosting offset guest).servicesOf (offset + 1) = guest.servicesOf 1 := by
  have hselect : (host.hosting offset guest).services.select (·.owner == offset + 1) =
      (guest.services.select (·.owner == 1)).map fun r =>
        ⟨host.services.last + r.id, Part.move offset r.value⟩ :=
    Table.select_hosting (fun r hr => beq_eq_false_iff_ne.mpr (h.services r hr)) fun p =>
      beq_moved offset p.owner 1
  rw [Tables.servicesOf, Tables.servicesOf, Param.bind_of_fits h.fits,
    Param.bind_of_fits Param.fits_one, hselect, List.map_map]
  rfl

/-- The resources of a repository, as they are read. -/
theorem resourcesOf_eq (t : Tables) (hn : (Param.number n).fault? = none) :
    t.resourcesOf (some n) none = .ok ((((t.resources.values.filter (·.owner == n)).map
      (·.value)).mergeSort resourcePrecedes).map (·.toResource)) := by
  have hkept : (fun p : Part StoredResource => (some n).all (p.owner == ·) && true) =
      (·.owner == n) := funext fun p => Bool.and_true _
  rw [← hkept]
  exact congrArg (Except.bind · fun _ => _) (Param.bind_of_fits hn [])

theorem resourcesOf (h : host.CanHost offset) :
    (host.hosting offset guest).resourcesOf (some (offset + 1)) none =
      guest.resourcesOf (some 1) none := by
  have hnone : host.resources.values.filter (·.owner == offset + 1) = [] := by
    refine List.filter_eq_nil_iff.mpr fun p hp howner => ?_
    obtain ⟨r, hr, rfl⟩ := List.mem_map.mp hp
    exact h.resources r hr (beq_iff_eq.mp howner)
  have hvalues : (host.hosting offset guest).resources.values = host.resources.values ++
      guest.resources.values.map (moveResource offset host.services.last) := Table.values_hosting
  have howner : ((·.owner == offset + 1) ∘ moveResource offset host.services.last) =
      fun p : Part StoredResource => p.owner == 1 := funext fun p => beq_moved offset p.owner 1
  rw [resourcesOf_eq _ h.fits, resourcesOf_eq _ Param.fits_one, hvalues, List.filter_append, hnone,
    List.nil_append, List.filter_map, howner]
  generalize guest.resources.values.filter (·.owner == 1) = ps
  -- neither the order of resources nor what is read of them depends on their links
  have hsorted := List.map_mergeSort (r := resourcePrecedes) (s := resourcePrecedes)
    (f := fun r : StoredResource => { r with service := r.service.map (host.services.last + ·) })
    (l := ps.map (·.value)) fun _ _ _ _ => rfl
  rw [List.map_map] at hsorted
  rw [List.map_map]
  refine congrArg Except.ok ((congrArg (List.map StoredResource.toResource) hsorted.symm).trans ?_)
  rw [List.map_map]
  rfl

theorem resourceId? (h : host.CanHost offset) (name kind : Text) :
    (host.hosting offset guest).resourceId? (offset + 1) name kind =
      (guest.resourceId? 1 name kind).map (Option.map (host.resources.last + ·)) := by
  have hfind : (host.hosting offset guest).resources.find?
        (fun p => p.owner == offset + 1 && p.value.name == name && p.value.kind.toText == kind) =
      (guest.resources.find? fun p =>
        p.owner == 1 && p.value.name == name && p.value.kind.toText == kind).map fun r =>
          ⟨host.resources.last + r.id, moveResource offset host.services.last r.value⟩ := by
    refine Table.find?_hosting (fun r hr => ?_) fun p => ?_
    · rw [beq_eq_false_iff_ne.mpr (h.resources r hr), Bool.false_and, Bool.false_and]
    · exact congrArg (· && p.value.name == name && p.value.kind.toText == kind)
        (beq_moved offset p.owner 1)
  rw [Tables.resourceId?, Tables.resourceId?, Param.bind_of_fits h.fits,
    Param.bind_of_fits Param.fits_one, hfind]
  cases Param.bind [.text name, .text kind] with
  | error e => rfl
  | ok _ => cases guest.resources.find? _ <;> rfl

/-! ### What belongs to resources and releases -/

theorem serviceName? (h : host.CanHost offset) (hguest : guest.Valid)
    (hn : host.resources.CanMove n) :
    (host.hosting offset guest).serviceName? (host.resources.last + n) = guest.serviceName? n := by
  have hresource : (host.hosting offset guest).resources.get? (host.resources.last + n) =
      (guest.resources.get? n).map (moveResource offset host.services.last) :=
    Table.get?_hosting h.valid.resources.bounded hn.positive
  rw [Tables.serviceName?, Tables.serviceName?, Param.bind_of_fits hn.moved,
    Param.bind_of_fits (hn.fits h.valid.resources.counting), hresource]
  refine congrArg Except.ok ?_
  cases hp : guest.resources.get? n with
  | none => rfl
  | some p =>
    cases hservice : p.value.service with
    | none => simp [moveResource, hservice]
    | some m =>
      obtain ⟨r, hr, rfl⟩ := Table.has_iff.mp
        (hguest.linksThere _ (hguest.resources.get?_eq_some.mp hp) m hservice)
      have hget : (host.hosting offset guest).services.get? (host.services.last + r.id) =
          (guest.services.get? r.id).map (Part.move offset) :=
        Table.get?_hosting h.valid.services.bounded (hguest.services.positive r hr)
      simp only [Option.map_some, Option.bind_eq_bind, Option.bind_some, moveResource, hservice,
        hget]
      cases guest.services.get? r.id <;> rfl

theorem attributesOf (h : host.CanHost offset) (hn : host.resources.CanMove n) :
    (host.hosting offset guest).attributesOf (host.resources.last + n) = guest.attributesOf n := by
  have hselect : (host.hosting offset guest).attributes.select
        (·.owner == host.resources.last + n) =
      (guest.attributes.select (·.owner == n)).map fun r =>
        ⟨host.attributes.last + r.id, Part.move host.resources.last r.value⟩ :=
    Table.select_hosting (fun r hr => beq_eq_false_iff_ne.mpr
      (h.valid.attributesOwned.owner_ne h.valid.resources hr hn.positive)) fun p =>
        beq_moved host.resources.last p.owner n
  rw [Tables.attributesOf, Tables.attributesOf, Param.bind_of_fits hn.moved,
    Param.bind_of_fits (hn.fits h.valid.resources.counting), hselect, List.map_map]
  rfl

theorem source? (h : host.CanHost offset) (hn : host.resources.CanMove n) :
    (host.hosting offset guest).source? (host.resources.last + n) = guest.source? n := by
  have hfind : (host.hosting offset guest).sources.find? (·.owner == host.resources.last + n) =
      (guest.sources.find? (·.owner == n)).map fun r =>
        ⟨host.sources.last + r.id, Part.move host.resources.last r.value⟩ :=
    Table.find?_hosting (fun r hr => beq_eq_false_iff_ne.mpr
      (h.valid.sourcesOwned.owner_ne h.valid.resources hr hn.positive)) fun p =>
        beq_moved host.resources.last p.owner n
  rw [Tables.source?, Tables.source?, Param.bind_of_fits hn.moved,
    Param.bind_of_fits (hn.fits h.valid.resources.counting), hfind, Option.map_map]
  rfl

theorem releasesOf (h : host.CanHost offset) :
    (host.hosting offset guest).releasesOf (offset + 1) =
      (guest.releasesOf 1).map (List.map (moveRelease host.releases.last)) := by
  have hselect : (host.hosting offset guest).releases.select (·.owner == offset + 1) =
      (guest.releases.select (·.owner == 1)).map fun r =>
        ⟨host.releases.last + r.id, Part.move offset r.value⟩ :=
    Table.select_hosting (fun r hr => beq_eq_false_iff_ne.mpr (h.releases r hr)) fun p =>
      beq_moved offset p.owner 1
  rw [Tables.releasesOf, Tables.releasesOf, Param.bind_of_fits h.fits,
    Param.bind_of_fits Param.fits_one, hselect]
  refine congrArg Except.ok ?_
  rw [List.map_map, List.map_map]
  rfl

theorem entriesOf (h : host.CanHost offset) (hn : host.releases.CanMove n) :
    (host.hosting offset guest).entriesOf (host.releases.last + n) = guest.entriesOf n := by
  have hselect : (host.hosting offset guest).entries.select (·.owner == host.releases.last + n) =
      (guest.entries.select (·.owner == n)).map fun r =>
        ⟨host.entries.last + r.id, Part.move host.releases.last r.value⟩ :=
    Table.select_hosting (fun r hr => beq_eq_false_iff_ne.mpr
      (h.valid.entriesOwned.owner_ne h.valid.releases hr hn.positive)) fun p =>
        beq_moved host.releases.last p.owner n
  rw [Tables.entriesOf, Tables.entriesOf, Param.bind_of_fits hn.moved,
    Param.bind_of_fits (hn.fits h.valid.releases.counting), hselect, List.map_map]
  rfl

end CanHost

/-! ### Guests -/

/-- The tables of a repository of its own: it has the first number there. The names of its resources
fit into a column. -/
structure Guest (name : Text) (t : Tables) : Prop where
  valid : t.Valid
  numbered : t.Numbered name 1
  named : ∀ r ∈ t.resources.rows, (Param.text r.value.value.name).fault? = none

namespace Guest

variable {t t' : Tables}

theorem has (h : Guest name t) : t.repositories.has 1 = true := by
  obtain ⟨r, hr, hid⟩ := h.numbered
  exact Table.has_iff.mpr ⟨r, List.mem_of_find?_eq_some hr, hid⟩

private theorem congr (h : Guest name t) (hvalid : t'.Valid)
    (hrepositories : t'.repositories = t.repositories) (hresources : t'.resources = t.resources) :
    Guest name t' :=
  ⟨hvalid, h.numbered.congr hrepositories, hresources ▸ h.named⟩

theorem putFile (h : Guest name t) {f : RepositoryFile} (hput : t.putFile f = .ok t') :
    Guest name t' := by
  have hvalid := h.valid.putFile hput
  obtain ⟨-, -, rfl⟩ := putFile_ok hput
  exact h.congr hvalid rfl rfl

theorem putService (h : Guest name t) {s : Service} (hput : t.putService 1 s = .ok (t', n)) :
    Guest name t' := by
  have hvalid := h.valid.putService hput
  obtain ⟨-, -, rfl, -⟩ := putService_ok hput
  exact h.congr hvalid rfl rfl

theorem putResource (h : Guest name t) {r : Resource} {link : Option Int}
    (hput : t.putResource 1 r link = .ok (t', n)) : Guest name t' := by
  have hvalid := h.valid.putResource hput
  obtain ⟨hbind, -, -, rfl, -⟩ := putResource_ok hput
  refine ⟨hvalid, h.numbered.congr rfl, fun x hx => ?_⟩
  rcases Table.mem_put hx with hx | rfl
  · exact h.named x hx
  · exact Param.fits_of_bind hbind (List.mem_cons_of_mem _ (List.mem_cons_of_mem _
      List.mem_cons_self))

theorem putAttribute (h : Guest name t) {a : Attribute} (hput : t.putAttribute n a = .ok t') :
    Guest name t' := by
  have hvalid := h.valid.putAttribute hput
  obtain ⟨-, -, rfl⟩ := putAttribute_ok hput
  exact h.congr hvalid rfl rfl

theorem putSource (h : Guest name t) {x : SnippetBundle} (hput : t.putSource n x = .ok t') :
    Guest name t' := by
  have hvalid := h.valid.putSource hput
  obtain ⟨-, -, rfl⟩ := putSource_ok hput
  exact h.congr hvalid rfl rfl

theorem putRelease (h : Guest name t) {r : ReleaseRecord} (hput : t.putRelease 1 r = .ok (t', n)) :
    Guest name t' := by
  have hvalid := h.valid.putRelease hput
  obtain ⟨-, -, rfl, -⟩ := putRelease_ok hput
  exact h.congr hvalid rfl rfl

theorem replaceEntries (h : Guest name t) {es : List Entry}
    (hreplace : t.replaceEntries n es = .ok t') : Guest name t' := by
  obtain ⟨⟨x, hx⟩, -⟩ := replaceEntries_touched hreplace
  refine h.congr (h.valid.replaceEntries hreplace) ?_ ?_ <;> rw [hx]

end Guest

end Tables

end ProviderCatalog.Store

/-! ### Repositories of which the record is stored only -/

namespace ProviderCatalog.Store.Tables

/-- The record of the repository with a name is stored under a number, and nothing belongs to it. -/
structure Bare (t : Tables) (name : Text) (id : Int) (record : RepositoryRecord) : Prop where
  valid : t.Valid
  row : t.row? name = some ⟨id, record⟩
  files : ∀ r ∈ t.files.rows, r.value.repositoryId ≠ id
  services : ∀ r ∈ t.services.rows, r.value.owner ≠ id
  resources : ∀ r ∈ t.resources.rows, r.value.owner ≠ id
  releases : ∀ r ∈ t.releases.rows, r.value.owner ≠ id

/-- Tables without any rows but records. -/
def Alone (t : Tables) : Prop := t = { empty with repositories := t.repositories }

variable {t u : Tables} {name : Text} {id n : Int} {record r : RepositoryRecord}

namespace Bare

/-- Nothing belongs to the record of a repository that was not there before. -/
theorem of_new (h : t.Valid) (hrow : t.row? r.name = none) (hput : t.putRepository r = .ok (u, n)) :
    Bare u r.name n { r with id := none } := by
  obtain ⟨hfound, hn⟩ := row?_putRepository hput
  have hvalid := h.putRepository hput
  rw [hrow] at hfound hn
  obtain ⟨-, rfl, -⟩ := putRepository_ok hput
  subst hn
  exact ⟨hvalid, hfound, fun _ hx => h.filesOwned.owner_ne h.repositories hx Int.one_pos,
    fun _ hx => h.servicesOwned.owner_ne h.repositories hx Int.one_pos,
    fun _ hx => h.resourcesOwned.owner_ne h.repositories hx Int.one_pos,
    fun _ hx => h.releasesOwned.owner_ne h.repositories hx Int.one_pos⟩

/-- Nothing belongs to the record of a repository that was cleared. -/
theorem of_clear (h : t.Valid) (hrow : t.row? name = some ⟨id, record⟩)
    (hclear : t.clearRepository id = .ok u) : Bare u name id record := by
  have hvalid := h.clearRepository hclear
  have hrow' := (row?_congr (repositories_clearRepository hclear) name).trans hrow
  obtain ⟨-, rfl⟩ := clearRepository_ok hclear
  have hgone {α : Type} {owner : α → Int} {table : Table α} {x : Row α}
      (hx : x ∈ (table.erase (owner ·.value == id)).rows) : owner x.value ≠ id := by
    simpa using (List.mem_filter.mp hx).2
  refine ⟨hvalid, hrow', fun x hx => hgone hx, fun x hx => hgone hx, fun x hx => ?_,
    fun x hx => hgone hx⟩
  -- a resource may have lost its link, but not its owner
  obtain ⟨y, hy, rfl⟩ := List.mem_map.mp hx
  have howner : y.value.owner ≠ id := hgone hy
  exact howner

/-- The record may be stored once more. -/
theorem putRepository (h : t.Bare r.name id record) (hput : t.putRepository r = .ok (u, n)) :
    Bare u r.name id (succeeding { r with id := none } record) := by
  obtain ⟨hfound, hn⟩ := row?_putRepository hput
  have hvalid := h.valid.putRepository hput
  rw [h.row] at hfound hn
  obtain ⟨-, rfl, -⟩ := putRepository_ok hput
  subst hn
  exact ⟨hvalid, hfound, h.files, h.services, h.resources, h.releases⟩

theorem numbered (h : t.Bare name id record) : t.Numbered name id := ⟨_, h.row, rfl⟩

theorem canHost {offset : Int} (h : t.Bare name (offset + 1) record)
    (hfits : (Param.number (offset + 1)).fault? = none) : t.CanHost offset where
  valid := h.valid
  there := Table.has_iff.mpr ⟨_, (h.valid.row?_eq_some.mp h.row).1, rfl⟩
  fits := hfits
  files := h.files
  services := h.services
  resources := h.resources
  releases := h.releases

/-- Without other rows the repository is a guest. -/
theorem guest (h : t.Bare name 1 record) (halone : t.Alone) : Guest name t :=
  ⟨h.valid, h.numbered, fun x hx => by
    rw [halone] at hx
    exact nomatch hx⟩

end Bare

/-- A host of tables without other rows is as it is without them. -/
theorem hosting_alone (h : t.Valid) (halone : u.Alone) (offset : Int) : t.hosting offset u = t := by
  have hnone {α : Type} (table : Table α) (move : α → α) :
      table.hosting move Table.empty = table := by
    rw [Table.hosting, Table.empty, Int.add_zero, List.map_nil, List.append_nil]
  have hfiles : FileTable.ofTable (t.files.hosting (moveFile offset) Table.empty) = t.files := by
    rw [hnone, FileTable.ofTable, ← h.mirrored]
  rw [halone]
  simp only [hosting, empty, hnone, FileTable.empty, FileTable.ofTable] at hfiles ⊢
  rw [hfiles]

end ProviderCatalog.Store.Tables

namespace ProviderCatalog.Store

open Schema (Resource ResourceKind)
open Changelog (Entry ReleaseRecord)

/-- A resource that is held, without the number of its row. -/
def HeldResource.unnumbered (x : HeldResource) : HeldResource :=
  { x with found := x.found.map fun f => (0, f.2) }

/-- Holdings without the numbers of rows. -/
def Holdings.unnumbered (x : Holdings) : Holdings where
  record := { x.record with id := none }
  files := x.files.map fun f => { f with repositoryId := 0 }
  services := x.services
  resources := x.resources.map (·.unnumbered)
  releases := x.releases.map fun r => ({ r.1 with id := none }, r.2)

/-- A store in order with tables. -/
abbrev ofTables (t : Tables) : Store := ⟨some t, []⟩

/-- Lists are read alike if their members are. -/
private theorem mapM_alike {α β γ δ ε : Type} {f : α → Except ε β} {g : γ → Except ε β} {k : α → γ}
    {u : β → δ} {l : List α}
    (h : ∀ a ∈ l, ∃ b b', f a = .ok b ∧ g (k a) = .ok b' ∧ u b' = u b) :
    ∃ bs bs', l.mapM f = .ok bs ∧ (l.map k).mapM g = .ok bs' ∧ bs'.map u = bs.map u := by
  induction l with
  | nil => exact ⟨[], [], rfl, rfl, rfl⟩
  | cons a l ih =>
    obtain ⟨b, b', hb, hb', hu⟩ := h a List.mem_cons_self
    obtain ⟨bs, bs', hbs, hbs', hus⟩ := ih fun x hx => h x (List.mem_cons_of_mem _ hx)
    refine ⟨b :: bs, b' :: bs', ?_, ?_, by rw [List.map_cons, List.map_cons, hu, hus]⟩
    · rw [List.mapM_cons, hb, hbs]
      rfl
    · rw [List.map_cons, List.mapM_cons, hb', hbs']
      rfl

namespace Tables.CanHost

variable {host guest : Tables} {offset n : Int} {name : Text}

/-- The number of a resource that is found by its name fits in the guest and as it is moved. -/
private theorem resourceId?_guest (h : host.CanHost offset) (hguest : Guest name guest)
    (hrange : (host.hosting offset guest).InRange) {r : Resource}
    (hr : (Param.text r.name).fault? = none) :
    ∃ id?, guest.resourceId? 1 r.name r.kind.toText = .ok id? ∧
      ∀ n ∈ id?, host.resources.CanMove n := by
  have hbind : Param.bind [.number 1, .text r.name, .text r.kind.toText] = .ok () :=
    (Param.bind_of_two_fit Param.fits_one hr _).trans (Param.bind_of_fits (Param.kind_fits r.kind) [])
  refine ⟨_, except_bind_eq_ok.mpr ⟨(), hbind, rfl⟩, fun n hn => ?_⟩
  obtain ⟨x, hx, rfl⟩ := Option.map_eq_some_iff.mp hn
  exact Table.canMove_of_mem h.valid.resources.counting hguest.valid.resources
    (List.mem_of_find?_eq_some hx) hrange.resources

/-- A resource of the repository is held alike. -/
private theorem heldResource (h : host.CanHost offset) (hguest : Guest name guest)
    (hrange : (host.hosting offset guest).InRange) {r : Resource}
    (hr : (Param.text r.name).fault? = none) :
    ∃ x y, (ofTables guest).heldResource 1 r = .ok x ∧
      (ofTables (host.hosting offset guest)).heldResource (offset + 1) r = .ok y ∧
      y.unnumbered = x.unnumbered := by
  obtain ⟨id?, hid, hmove⟩ := resourceId?_guest h hguest hrange hr
  have hid' : (host.hosting offset guest).resourceId? (offset + 1) r.name r.kind.toText = _ :=
    h.resourceId? r.name r.kind.toText
  rw [hid] at hid'
  cases id? with
  | none =>
    exact ⟨_, _, except_bind_eq_ok.mpr ⟨_, hid, rfl⟩, except_bind_eq_ok.mpr ⟨_, hid', rfl⟩, rfl⟩
  | some n =>
    have hn := hmove n rfl
    have hbind : Param.bind [.number n] = .ok () :=
      Param.bind_of_fits (hn.fits h.valid.resources.counting) []
    obtain ⟨service, hservice⟩ : ∃ x, guest.serviceName? n = .ok x :=
      ⟨_, except_bind_eq_ok.mpr ⟨(), hbind, rfl⟩⟩
    obtain ⟨attributes, hattributes⟩ : ∃ x, guest.attributesOf n = .ok x :=
      ⟨_, except_bind_eq_ok.mpr ⟨(), hbind, rfl⟩⟩
    obtain ⟨source, hsource⟩ : ∃ x, guest.source? n = .ok x :=
      ⟨_, except_bind_eq_ok.mpr ⟨(), hbind, rfl⟩⟩
    refine ⟨⟨{ r with attributes, source }, some (n, service)⟩,
      ⟨{ r with attributes, source }, some (host.resources.last + n, service)⟩,
      except_bind_eq_ok.mpr ⟨_, hid, ?_⟩, except_bind_eq_ok.mpr ⟨_, hid', ?_⟩, rfl⟩
    · exact except_bind_eq_ok.mpr ⟨_, hservice, except_bind_eq_ok.mpr ⟨_, hattributes,
        except_bind_eq_ok.mpr ⟨_, hsource, rfl⟩⟩⟩
    · exact except_bind_eq_ok.mpr ⟨_, (h.serviceName? hguest.valid hn).trans hservice,
        except_bind_eq_ok.mpr ⟨_, (h.attributesOf hn).trans hattributes,
          except_bind_eq_ok.mpr ⟨_, (h.source? hn).trans hsource, rfl⟩⟩⟩

/-- A release of the repository is held alike. -/
private theorem heldRelease (h : host.CanHost offset) {r : ReleaseRecord} (hid : r.id = some n)
    (hn : host.releases.CanMove n) :
    ∃ es, (ofTables guest).entries (r.id.getD 0) = .ok es ∧
      (ofTables (host.hosting offset guest)).entries
        ((moveRelease host.releases.last r).id.getD 0) = .ok es := by
  have hbind : Param.bind [.number n] = .ok () :=
    Param.bind_of_fits (hn.fits h.valid.releases.counting) []
  obtain ⟨es, hes⟩ : ∃ x, guest.entriesOf n = .ok x :=
    ⟨_, except_bind_eq_ok.mpr ⟨(), hbind, rfl⟩⟩
  rw [moveRelease, hid]
  exact ⟨es, hes, (h.entriesOf hn).trans hes⟩

private theorem resources_guest (hguest : Guest name guest) :
    ∃ rs, guest.resourcesOf (some 1) none = .ok rs ∧
      ∀ r ∈ rs, (Param.text r.name).fault? = none := by
  refine ⟨_, resourcesOf_eq guest Param.fits_one, fun r hr => ?_⟩
  obtain ⟨x, hx, rfl⟩ := List.mem_map.mp hr
  obtain ⟨p, hp, rfl⟩ := List.mem_map.mp (List.mem_mergeSort.mp hx)
  obtain ⟨y, hy, rfl⟩ := List.mem_map.mp (List.mem_of_mem_filter hp)
  exact hguest.named y hy

private theorem releases_guest (h : host.CanHost offset) (hguest : Guest name guest)
    (hrange : (host.hosting offset guest).InRange) :
    ∃ rs, guest.releasesOf 1 = .ok rs ∧
      ∀ r ∈ rs, ∃ n, r.id = some n ∧ host.releases.CanMove n := by
  refine ⟨_, except_bind_eq_ok.mpr ⟨(), Param.bind_of_fits Param.fits_one [], rfl⟩, fun r hr => ?_⟩
  obtain ⟨x, hx, rfl⟩ := List.mem_map.mp hr
  exact ⟨x.id, rfl, Table.canMove_of_mem h.valid.releases.counting hguest.valid.releases
    (List.mem_of_mem_filter hx) hrange.releases⟩

/-- A host and its guest hold the same about the repository but for numbers and the record. -/
theorem holdings (h : host.CanHost offset) (hguest : Guest name guest)
    (hrange : (host.hosting offset guest).InRange) (hname : (Param.text name).fault? = none)
    {record record' : RepositoryRecord} (hrow : host.row? name = some ⟨offset + 1, record⟩)
    (hrow' : guest.row? name = some ⟨1, record'⟩) :
    ∃ x y, (ofTables (host.hosting offset guest)).holdings? name = .ok (some x) ∧
      (ofTables guest).holdings? name = .ok (some y) ∧
      y.unnumbered.record = { record' with id := none } ∧
      x.unnumbered = { y.unnumbered with record := { record with id := none } } := by
  have hfound (t : Tables) {r : Row RepositoryRecord} (hr : t.row? name = some r) :
      (ofTables t).repository? name = .ok (some (readRecord r)) := by
    change t.repository? name = _
    exact except_bind_eq_ok.mpr ⟨(), Param.bind_of_fits hname [],
      congrArg (Except.ok ∘ Option.map readRecord) hr⟩
  have hone : Param.bind [.number 1] = .ok () := Param.bind_of_fits Param.fits_one []
  obtain ⟨files, hfiles⟩ : ∃ fs, guest.filesOf 1 = .ok fs :=
    ⟨_, except_bind_eq_ok.mpr ⟨(), hone, rfl⟩⟩
  obtain ⟨services, hservices⟩ : ∃ ss, guest.servicesOf 1 = .ok ss :=
    ⟨_, except_bind_eq_ok.mpr ⟨(), hone, rfl⟩⟩
  obtain ⟨resources, hresources, hnamed⟩ := resources_guest hguest
  obtain ⟨releases, hreleases, hids⟩ := releases_guest h hguest hrange
  have hfiles' : (host.hosting offset guest).filesOf (offset + 1) = _ := h.filesOf
  rw [hfiles] at hfiles'
  have hreleases' : (host.hosting offset guest).releasesOf (offset + 1) = _ := h.releasesOf
  rw [hreleases] at hreleases'
  obtain ⟨held, held', hheld, hheld', hsame⟩ := mapM_alike (k := fun r => r) fun r hr =>
    heldResource h hguest hrange (hnamed r hr)
  rw [List.map_id'] at hheld'
  obtain ⟨known, known', hknown, hknown', hsame'⟩ := mapM_alike (l := releases)
    (f := fun r => return (r, ← (ofTables guest).entries (r.id.getD 0)))
    (g := fun r => return (r, ← (ofTables (host.hosting offset guest)).entries (r.id.getD 0)))
    (k := moveRelease host.releases.last) (u := fun r => ({ r.1 with id := none }, r.2))
    fun r hr => by
      obtain ⟨n, hid, hn⟩ := hids r hr
      obtain ⟨es, hes, hes'⟩ := heldRelease h hid hn
      exact ⟨_, _, except_bind_eq_ok.mpr ⟨es, hes, rfl⟩, except_bind_eq_ok.mpr ⟨es, hes', rfl⟩, rfl⟩
  refine ⟨⟨readRecord ⟨offset + 1, record⟩, files.map (moveFile offset), services, held', known'⟩,
    ⟨readRecord ⟨1, record'⟩, files, services, held, known⟩, ?_, ?_, rfl, ?_⟩
  · exact except_bind_eq_ok.mpr ⟨_, hfound _ hrow, except_bind_eq_ok.mpr ⟨_, hfiles',
      except_bind_eq_ok.mpr ⟨_, h.servicesOf.trans hservices,
        except_bind_eq_ok.mpr ⟨_, h.resourcesOf.trans hresources,
          except_bind_eq_ok.mpr ⟨_, hheld', except_bind_eq_ok.mpr ⟨_, hreleases',
            except_bind_eq_ok.mpr ⟨_, hknown', rfl⟩⟩⟩⟩⟩⟩⟩
  · exact except_bind_eq_ok.mpr ⟨_, hfound _ hrow', except_bind_eq_ok.mpr ⟨_, hfiles,
      except_bind_eq_ok.mpr ⟨_, hservices, except_bind_eq_ok.mpr ⟨_, hresources,
        except_bind_eq_ok.mpr ⟨_, hheld, except_bind_eq_ok.mpr ⟨_, hreleases,
          except_bind_eq_ok.mpr ⟨_, hknown, rfl⟩⟩⟩⟩⟩⟩⟩
  · simp only [Holdings.unnumbered, hsame, hsame', List.map_map]
    rfl

end Tables.CanHost

end ProviderCatalog.Store
