import ProviderCatalog.Store.Write
import ProviderCatalog.Proofs.Computation
import ProviderCatalog.Proofs.Store.Rows
import Mathlib.Algebra.Group.Int.Defs
import Mathlib.Data.List.TakeWhile

/-!
# Writes that are carried out

A write that is carried out has passed its checks: its values fit into their columns, and the rows
that they refer to are there. Each write is described once, by the checks that it passed and by the
tables that it leaves. The index is told of every file that is stored, replaced or removed. If it
was the index of all files before, it is the index of all files afterwards: the row of a file comes
between the rows with smaller and with greater numbers, and its old texts are those that are kept of
it.

## Main definitions

* `fileKey` and the like: what tells the rows of a table apart.
* `succeeding`: a record in the place of an older one.

## Main results

* `Tables.putRepository_ok` and the like: the checks and the effect of a write.
* `Tables.putFile_eq` and the like: a write whose owner is there depends on its values only.
* `Param.bind_eq_ok_iff`, `Param.text_fits_iff`, `Table.Sound.fits_of_has`: which values fit.
* `Search.Index.insert_between`, `Search.Index.remove_between`: a row of an index among others.
* `FileTable.store_eq`, `FileTable.remove_eq`: the index after a file was stored, and after files
  were removed.
-/

namespace ProviderCatalog.Store

open Schema (Attribute Resource ResourceKind Service SnippetBundle)
open Changelog (Entry ReleaseRecord)

/-! ### Keys -/

/-- What tells a file from the others. -/
def fileKey (f : RepositoryFile) : Int × Text := (f.repositoryId, f.path)

/-- What tells a service from the others. -/
def serviceKey (p : Part StoredService) : Int × Text := (p.owner, p.value.name)

/-- What tells a resource from the others. -/
def resourceKey (p : Part StoredResource) : Int × Text × ResourceKind :=
  (p.owner, p.value.name, p.value.kind)

/-- What tells an attribute from the others. -/
def attributeKey (p : Part Attribute) : Int × Text := (p.owner, p.value.name)

/-- What tells a release from the others. -/
def releaseKey (p : Part ReleaseRecord) : Int × Text := (p.owner, p.value.version)

/-- What tells an entry from the others. -/
def entryKey (p : Part Entry) : Int × Text := (p.owner, p.value.key)

/-- A record as it is stored in the place of an older one: with the readme text of the older one if
it has none. -/
def succeeding (new old : RepositoryRecord) : RepositoryRecord :=
  { new with readme := new.readme <|> old.readme }

/-! ### Values that fit -/

namespace Param

variable {p q : Param}

theorem fits_iff {n : Int} : (number n).fault? = none ↔ -(2 ^ 63) ≤ n ∧ n < 2 ^ 63 := by
  rw [fault?]
  split
  · rename_i h
    exact ⟨fun _ => by simpa using h, fun _ => rfl⟩
  · rename_i h
    exact ⟨nofun, fun hn => absurd (by simpa using hn) h⟩

theorem fits_one : (number 1).fault? = none := by decide

private theorem encodeFaultFrom?_eq_none {t : Text} (position : Nat) :
    t.encodeFaultFrom? position = none ↔ t.isUnicode = true := by
  induction t generalizing position with
  | nil => exact iff_of_true rfl rfl
  | cons x t ih =>
    cases x with
    | scalar c => exact ih (position + 1)
    | surrogate n => exact iff_of_false nofun nofun

/-- A text fits if it has no lone surrogate. -/
theorem text_fits_iff {t : Text} : (text t).fault? = none ↔ t.isUnicode = true := by
  rw [fault?, Option.map_eq_none_iff, Text.encodeFault?, encodeFaultFrom?_eq_none]

theorem ofText?_fits_iff {t : Option Text} :
    (ofText? t).fault? = none ↔ ∀ x ∈ t, x.isUnicode = true := by
  cases t with
  | none => exact iff_of_true rfl nofun
  | some t => simp [ofText?, text_fits_iff]

/-- Values are bound if all of them fit. -/
theorem bind_eq_ok_iff {ps : List Param} : bind ps = .ok () ↔ ∀ p ∈ ps, p.fault? = none := by
  rw [← List.findSome?_eq_none_iff, bind]
  cases ps.findSome? fault? with
  | none => exact iff_of_true rfl rfl
  | some f => exact iff_of_false nofun nofun

/-- A value that fits does not matter for the others. -/
theorem bind_of_fits (h : p.fault? = none) (ps : List Param) : bind (p :: ps) = bind ps := by
  rw [bind, bind, List.findSome?_cons, h]

/-- Values that are bound fit. -/
theorem fits_of_bind {ps : List Param} (h : bind ps = .ok ()) (hp : p ∈ ps) : p.fault? = none :=
  bind_eq_ok_iff.mp h p hp

theorem bind_of_two_fit (hp : p.fault? = none) (hq : q.fault? = none) (ps : List Param) :
    bind (p :: q :: ps) = bind ps :=
  (bind_of_fits hp _).trans (bind_of_fits hq _)

/-- The name of a kind fits. -/
theorem kind_fits (k : ResourceKind) : (text k.toText).fault? = none := by
  cases k <;> decide

end Param

/-- The number of a row fits if the last number that was given out does. -/
theorem Table.Sound.fits_of_has {α κ : Type} {key : α → κ} {t : Table α} {n : Int}
    (h : t.Sound key) (hn : t.has n = true) (hlast : t.last < 2 ^ 63) :
    (Param.number n).fault? = none := by
  obtain ⟨r, hr, rfl⟩ := has_iff.mp hn
  have hpositive := h.positive r hr
  have hbounded := h.bounded r hr
  exact Param.fits_iff.mpr (by omega)

/-! ### Carried out writes -/

variable {t t' : Tables} {n repository resource release : Int}

private theorem require_ok {α : Type} {table : Table α} {u : Unit}
    (h : table.require n = .ok u) : table.has n = true := by
  unfold Table.require at h
  split at h
  · assumption
  · exact nomatch h

namespace Tables

theorem putRepository_ok {r : RepositoryRecord} (h : t.putRepository r = .ok (t', n)) :
    Param.bind (Param.ofRepository r) = .ok () ∧
      t' = { t with repositories := (t.repositories.putMerging (·.name)
        (succeeding { r with id := none }) { r with id := none }).1 } ∧
      n = (t.repositories.putMerging (·.name)
        (succeeding { r with id := none }) { r with id := none }).2 := by
  obtain ⟨⟨⟩, hbind, h⟩ := except_bind_eq_ok.mp h
  cases h
  exact ⟨hbind, rfl, rfl⟩

theorem putFile_ok {f : RepositoryFile} (h : t.putFile f = .ok t') :
    Param.bind (Param.ofFile f) = .ok () ∧ t.repositories.has f.repositoryId = true ∧
      t' = { t with files := t.files.store f } := by
  obtain ⟨⟨⟩, hbind, h⟩ := except_bind_eq_ok.mp h
  obtain ⟨⟨⟩, hrequire, h⟩ := except_bind_eq_ok.mp h
  cases h
  exact ⟨hbind, require_ok hrequire, rfl⟩

theorem putService_ok {s : Service} (h : t.putService repository s = .ok (t', n)) :
    Param.bind (Param.ofService ⟨repository, .ofService s⟩) = .ok () ∧
      t.repositories.has repository = true ∧
      t' = { t with services := (t.services.put serviceKey ⟨repository, .ofService s⟩).1 } ∧
      n = (t.services.put serviceKey ⟨repository, .ofService s⟩).2 := by
  obtain ⟨⟨⟩, hbind, h⟩ := except_bind_eq_ok.mp h
  obtain ⟨⟨⟩, hrequire, h⟩ := except_bind_eq_ok.mp h
  cases h
  exact ⟨hbind, require_ok hrequire, rfl, rfl⟩

theorem putResource_ok {r : Resource} {link : Option Int}
    (h : t.putResource repository r link = .ok (t', n)) :
    Param.bind (Param.ofResource ⟨repository, .ofResource r link⟩) = .ok () ∧
      t.repositories.has repository = true ∧ (∀ s, link = some s → t.services.has s = true) ∧
      t' = { t with
        resources := (t.resources.put resourceKey ⟨repository, .ofResource r link⟩).1 } ∧
      n = (t.resources.put resourceKey ⟨repository, .ofResource r link⟩).2 := by
  obtain ⟨⟨⟩, hbind, h⟩ := except_bind_eq_ok.mp h
  obtain ⟨⟨⟩, hrequire, h⟩ := except_bind_eq_ok.mp h
  cases link with
  | none =>
    cases h
    exact ⟨hbind, require_ok hrequire, fun _ hs => (nomatch hs), rfl, rfl⟩
  | some s =>
    obtain ⟨⟨⟩, hservice, h⟩ := except_bind_eq_ok.mp h
    cases h
    refine ⟨hbind, require_ok hrequire, fun s' hs => ?_, rfl, rfl⟩
    exact Option.some.inj hs ▸ require_ok hservice

theorem putAttribute_ok {a : Attribute} (h : t.putAttribute resource a = .ok t') :
    Param.bind (Param.ofAttribute ⟨resource, a⟩) = .ok () ∧ t.resources.has resource = true ∧
      t' = { t with attributes := (t.attributes.put attributeKey ⟨resource, a⟩).1 } := by
  obtain ⟨⟨⟩, hbind, h⟩ := except_bind_eq_ok.mp h
  obtain ⟨⟨⟩, hrequire, h⟩ := except_bind_eq_ok.mp h
  cases h
  exact ⟨hbind, require_ok hrequire, rfl⟩

theorem putSource_ok {x : SnippetBundle} (h : t.putSource resource x = .ok t') :
    Param.bind (Param.ofSource ⟨resource, x⟩) = .ok () ∧ t.resources.has resource = true ∧
      t' = { t with sources := (t.sources.put Part.owner ⟨resource, x⟩).1 } := by
  obtain ⟨⟨⟩, hbind, h⟩ := except_bind_eq_ok.mp h
  obtain ⟨⟨⟩, hrequire, h⟩ := except_bind_eq_ok.mp h
  cases h
  exact ⟨hbind, require_ok hrequire, rfl⟩

theorem putRelease_ok {r : ReleaseRecord} (h : t.putRelease repository r = .ok (t', n)) :
    Param.bind (Param.ofRelease ⟨repository, { r with id := none }⟩) = .ok () ∧
      t.repositories.has repository = true ∧
      t' = { t with
        releases := (t.releases.put releaseKey ⟨repository, { r with id := none }⟩).1 } ∧
      n = (t.releases.put releaseKey ⟨repository, { r with id := none }⟩).2 := by
  obtain ⟨⟨⟩, hbind, h⟩ := except_bind_eq_ok.mp h
  obtain ⟨⟨⟩, hrequire, h⟩ := except_bind_eq_ok.mp h
  cases h
  exact ⟨hbind, require_ok hrequire, rfl, rfl⟩

theorem addEntry_ok {e : Entry} (h : t.addEntry release e = .ok t') :
    Param.bind (Param.ofEntry ⟨release, e⟩) = .ok () ∧
      (∀ r ∈ t.entries.rows, entryKey r.value ≠ entryKey ⟨release, e⟩) ∧
      t.releases.has release = true ∧ t' = { t with entries := t.entries.append ⟨release, e⟩ } := by
  obtain ⟨⟨⟩, hbind, h⟩ := except_bind_eq_ok.mp h
  split at h
  · exact nomatch h
  · rename_i hkeys
    obtain ⟨⟨⟩, hrequire, h⟩ := except_bind_eq_ok.mp h
    cases h
    refine ⟨hbind, fun r hr hkey => hkeys ?_, require_ok hrequire, rfl⟩
    obtain ⟨howner, hname⟩ := Prod.mk.inj hkey
    exact List.any_eq_true.mpr ⟨r.value, List.mem_map_of_mem hr, by simp [howner, hname]⟩

/-- The entries of a release are replaced by removing those that it has and adding the others one by
one. -/
theorem replaceEntries_ok {es : List Entry} (h : t.replaceEntries release es = .ok t') :
    Param.bind [.number release] = .ok () ∧
      es.foldlM (fun t e => t.addEntry release e)
        { t with entries := t.entries.erase (·.value.owner == release) } = .ok t' := by
  obtain ⟨⟨⟩, hbind, h⟩ := except_bind_eq_ok.mp h
  exact ⟨hbind, h⟩

/-! ### Writes whose owner is there -/

theorem require_of_has {α : Type} {table : Table α} (h : table.has n = true) :
    table.require n = .ok () :=
  if_pos h

theorem putFile_eq {f : RepositoryFile} (h : t.repositories.has f.repositoryId = true) :
    t.putFile f = (Param.bind (Param.ofFile f)).map fun _ =>
      { t with files := t.files.store f } := by
  rw [putFile, require_of_has h]
  cases Param.bind _ <;> rfl

theorem putService_eq {s : Service} (h : t.repositories.has n = true) :
    t.putService n s = (Param.bind (Param.ofService ⟨n, .ofService s⟩)).map fun _ =>
      ({ t with services := (t.services.put serviceKey ⟨n, .ofService s⟩).1 },
        (t.services.put serviceKey ⟨n, .ofService s⟩).2) := by
  rw [putService, require_of_has h]
  dsimp only
  cases Param.bind _ <;> rfl

theorem putResource_eq {r : Resource} {link : Option Int}
    (h : t.repositories.has n = true) :
    t.putResource n r link = (Param.bind (Param.ofResource ⟨n, .ofResource r link⟩)).bind fun _ =>
      (link.elim (.ok ()) t.services.require).map fun _ =>
        ({ t with resources := (t.resources.put resourceKey ⟨n, .ofResource r link⟩).1 },
          (t.resources.put resourceKey ⟨n, .ofResource r link⟩).2) := by
  rw [putResource, require_of_has h]
  dsimp only
  cases Param.bind _ with
  | error e => rfl
  | ok _ =>
    cases link with
    | none => rfl
    | some s => cases hs : t.services.require s <;> simp [hs, Except.map] <;> rfl

theorem putRelease_eq {r : ReleaseRecord} (h : t.repositories.has n = true) :
    t.putRelease n r = (Param.bind (Param.ofRelease ⟨n, { r with id := none }⟩)).map fun _ =>
      ({ t with releases := (t.releases.put releaseKey ⟨n, { r with id := none }⟩).1 },
        (t.releases.put releaseKey ⟨n, { r with id := none }⟩).2) := by
  rw [putRelease, require_of_has h]
  dsimp only
  cases Param.bind _ <;> rfl

theorem putAttribute_eq (t : Tables) (n : Int) (a : Attribute) :
    t.putAttribute n a = (Param.bind (Param.ofAttribute ⟨n, a⟩)).bind fun _ =>
      (t.resources.require n).map fun _ =>
        { t with attributes := (t.attributes.put attributeKey ⟨n, a⟩).1 } := by
  rw [putAttribute]
  cases Param.bind _ with
  | error e => rfl
  | ok _ => cases t.resources.require n <;> rfl

theorem putSource_eq (t : Tables) (n : Int) (x : SnippetBundle) :
    t.putSource n x = (Param.bind (Param.ofSource ⟨n, x⟩)).bind fun _ =>
      (t.resources.require n).map fun _ =>
        { t with sources := (t.sources.put Part.owner ⟨n, x⟩).1 } := by
  rw [putSource]
  cases Param.bind _ with
  | error e => rfl
  | ok _ => cases t.resources.require n <;> rfl

theorem addEntry_eq (t : Tables) (n : Int) (e : Entry) :
    t.addEntry n e = (Param.bind (Param.ofEntry ⟨n, e⟩)).bind fun _ =>
      if t.entries.values.any fun p => p.owner == n && p.value.key == e.key then
        .error (.refused .duplicateEntry)
      else (t.releases.require n).map fun _ => { t with entries := t.entries.append ⟨n, e⟩ } := by
  rw [addEntry]
  dsimp only
  cases Param.bind _ with
  | error e => rfl
  | ok _ =>
    change (if _ then _ else _) = if _ then _ else _
    split
    · rfl
    · cases t.releases.require n <;> rfl

end Tables

end ProviderCatalog.Store

/-! ### The index mirrors the files -/

namespace ProviderCatalog

namespace Search.Index

variable {before after : Index} {n : Int} {texts : List Text}

/-- A row is put between the rows with smaller and with greater numbers. -/
theorem insert_between (texts : List Text) (hbefore : ∀ d ∈ before, d.value < n)
    (hafter : ∀ d ∈ after, n < d.value) :
    insert (before ++ after) n texts = before ++ document n texts :: after := by
  have htake : after.takeWhile (·.value < n) = [] :=
    List.takeWhile_eq_nil_iff.mpr fun hpos => by
      have hfirst := hafter _ (List.getElem_mem hpos)
      simpa using Int.le_of_lt hfirst
  have hdrop : after.dropWhile (·.value < n) = after :=
    List.dropWhile_eq_self_iff.mpr fun hpos => by
      have hfirst := hafter _ (List.getElem_mem hpos)
      simpa using Int.le_of_lt hfirst
  have hall : ∀ d ∈ before, decide (d.value < n) = true := fun d hd => decide_eq_true (hbefore d hd)
  rw [insert, List.takeWhile_append_of_pos hall, List.dropWhile_append_of_pos hall, htake, hdrop,
    List.append_nil]

/-- A row is taken out by its number and its texts. -/
theorem remove_between (texts : List Text) (hbefore : ∀ d ∈ before, d.value ≠ n) :
    remove (before ++ document n texts :: after) n texts = before ++ after := by
  have hnot : document n texts ∉ before := fun hmem => hbefore _ hmem rfl
  rw [remove, List.erase_append_right _ hnot, List.erase_cons_head]

end Search.Index

namespace Store

open Search (Index)

/-- What the index keeps of the row of a file. -/
def indexed (r : Row RepositoryFile) : Search.Document Int := Index.document r.id (fileTexts r.value)

theorem indexOf_eq (files : Table RepositoryFile) : indexOf files = files.rows.map indexed := by
  rw [indexOf, Index.build, List.map_map]
  rfl

/-- The index of files without those that are removed, if no other row has the number of one. -/
private theorem foldl_remove (p : Row RepositoryFile → Bool) (kept : Index)
    {rows : List (Row RepositoryFile)} (hids : rows.Pairwise (·.id ≠ ·.id))
    (hkept : ∀ d ∈ kept, ∀ r ∈ rows, d.value ≠ r.id) :
    (rows.filter p).foldl (fun i r => Index.remove i r.id (fileTexts r.value))
        (kept ++ rows.map indexed) = kept ++ (rows.filter (!p ·)).map indexed := by
  induction rows generalizing kept with
  | nil => rfl
  | cons r rows ih =>
    obtain ⟨hr, hids⟩ := List.pairwise_cons.mp hids
    cases hp : p r with
    | true =>
      have hfirst : Index.remove (kept ++ indexed r :: rows.map indexed) r.id (fileTexts r.value) =
          kept ++ rows.map indexed :=
        Index.remove_between _ fun d hd => hkept d hd r List.mem_cons_self
      simp only [List.filter_cons, hp, if_true, List.foldl_cons, List.map_cons, hfirst,
        Bool.not_true, Bool.false_eq_true, if_false]
      exact ih kept hids fun d hd x hx => hkept d hd x (List.mem_cons_of_mem _ hx)
    | false =>
      have hmore : ∀ d ∈ kept ++ [indexed r], ∀ x ∈ rows, d.value ≠ x.id := by
        intro d hd x hx
        rcases List.mem_append.mp hd with hd | hd
        · exact hkept d hd x (List.mem_cons_of_mem _ hx)
        · rw [List.mem_singleton.mp hd]
          exact hr x hx
      simp only [List.filter_cons, hp, Bool.false_eq_true, if_false, Bool.not_false, if_true,
        List.map_cons]
      simpa using ih (kept ++ [indexed r]) hids hmore

/-- An index that is told of the files that are removed is the index of the others. -/
theorem FileTable.remove_eq {t : FileTable} (hascending : t.rows.Pairwise (·.id < ·.id))
    (hindex : t.index = indexOf t.toTable) (p : Row RepositoryFile → Bool) :
    t.remove p = .ofTable (t.erase p) := by
  rw [remove, hindex, indexOf_eq]
  have hremoved := foldl_remove p [] (hascending.imp Int.ne_of_lt) (List.forall_mem_nil _)
  exact congrArg _ (hremoved.trans (indexOf_eq (t.erase p)).symm)

/-- An index that is told of a file that is stored is the index of all files. -/
theorem FileTable.store_eq {t : FileTable} (hascending : t.rows.Pairwise (·.id < ·.id))
    (hbounded : ∀ r ∈ t.rows, r.id ≤ t.last) (hindex : t.index = indexOf t.toTable)
    (f : RepositoryFile) : t.store f = .ofTable (t.put fileKey f).1 := by
  suffices h : t.reindexed f (t.put fileKey f).2 = indexOf (t.put fileKey f).1 from
    congrArg (FileTable.mk _) h
  have hfind : t.find? (fun g => (g.repositoryId, g.path) == (f.repositoryId, f.path)) =
      t.find? (fileKey · == fileKey f) := rfl
  have hnone {rows : List (Row RepositoryFile)} (h : ∀ x ∈ rows, fileKey x.value ≠ fileKey f) :
      rows.find? (fun x => fileKey x.value == fileKey f) = none :=
    List.find?_eq_none.mpr fun x hx => by simpa using h x hx
  have hsmaller {before : List (Row RepositoryFile)} {n : Int} (hall : ∀ x ∈ before, x.id < n) :
      ∀ d ∈ before.map indexed, d.value < n := by
    intro d hd
    obtain ⟨x, hx, rfl⟩ := List.mem_map.mp hd
    exact hall x hx
  rcases Table.putMerging_cases t.toTable fileKey (fun _ => f) f with
    ⟨habsent, hput⟩ | ⟨before, r, after, hrows, hkeys, hr, hput⟩
  · -- the number of a new row is above all others
    have hnew : ∀ x ∈ t.rows, x.id < t.next :=
      fun x hx => Int.lt_add_one_of_le (hbounded x hx)
    rw [reindexed, hfind, Table.find?, hnone habsent, Table.put, hput, hindex, indexOf_eq,
      indexOf_eq]
    simpa [Table.append, indexed] using
      Index.insert_between (fileTexts f) (hsmaller hnew) (List.forall_mem_nil _)
  · have hsome : t.find? (fileKey · == fileKey f) = some r := by
      rw [Table.find?, hrows, List.find?_append, hnone hkeys, Option.none_or, List.find?_cons, hr,
        BEq.rfl]
    rw [hrows, List.pairwise_append, List.pairwise_cons] at hascending
    obtain ⟨-, ⟨hafter, -⟩, hbefore⟩ := hascending
    have hbelow : ∀ d ∈ before.map indexed, d.value < r.id :=
      hsmaller fun x hx => hbefore x hx r List.mem_cons_self
    have habove : ∀ d ∈ after.map indexed, r.id < d.value := by
      intro d hd
      obtain ⟨x, hx, rfl⟩ := List.mem_map.mp hd
      exact hafter x hx
    rw [reindexed, hfind, hsome, Table.put, hput, hindex, indexOf_eq, indexOf_eq, hrows,
      List.map_append, List.map_cons, List.map_append, List.map_cons]
    dsimp only
    rw [Index.replace, indexed, Index.remove_between _ fun d hd => Int.ne_of_lt (hbelow d hd),
      Index.insert_between _ hbelow habove]
    rfl

end Store

end ProviderCatalog
