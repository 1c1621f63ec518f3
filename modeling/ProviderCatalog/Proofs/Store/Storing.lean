import ProviderCatalog.Proofs.Store.Filling
import ProviderCatalog.Proofs.Store.Operations
import ProviderCatalog.Proofs.Store.Upserts

/-!
# Rows that fit are stored

A row whose values fit into their columns, and whose owner is there, is stored: afterwards it stands
in its table under a number, and one number is used up. So are the entries of a release whose keys
differ, all at once and in their order. A row with a value that does not fit is not stored, and that
is no refusal.

The tables describe a resource under a number when its row has the number, and exactly its
attributes, in their order, and its source belong to that row. A resource that is appended with
everything that belongs to it gets a number that is new, and so it is described from then on, and
all resources that were described before still are. What is described is what is read.

## Main definitions

* `Tables.Has`: a row is there.
* `Tables.Stores`: a row is stored under a number.
* `Tables.EntriesOf`: the entries of a release, in order.
* `Table.partsOf`: what belongs to a row, in order.
* `Tables.Describes`: a resource is described under a number.
* `Tables.Appends`: a resource is appended with everything that belongs to it.
* `Tables.serviceNamed?`: the name of the service with a number.

## Main results

* `Tables.Valid.putService_stores` and the like: rows that fit.
* `Tables.putService_fails` and the like: rows that do not fit.
* `Tables.Valid.replaceEntries_stores`: entries that fit.
* `Tables.Appends.describes`, `Tables.Describes.kept`: the resources that are described afterwards.
* `Tables.Describes.attributesOf` and the like: what is read of them.
-/

namespace ProviderCatalog.Store

open Schema (Attribute Resource Service SnippetBundle)
open Changelog (Entry ReleaseRecord)

/-- Values that are not bound have a fault that is no refusal. -/
theorem Param.exists_error_of_bind {ps : List Param} (h : bind ps ≠ .ok ()) :
    ∃ f, bind ps = .error f ∧ f.isRefusal = false := by
  cases hbind : bind ps with
  | error f => exact ⟨f, rfl, bind_error hbind⟩
  | ok u => exact absurd hbind h

namespace Tables

/-- A table has a row with a value. -/
def Has (t : Tables) (k : Kind) (a : k.Value) : Prop :=
  ∃ n, (⟨n, a⟩ : Row k.Value) ∈ (t.table k).rows

/-- The tables before and after a row was stored under a number. -/
structure Stores (t : Tables) (k : Kind) (a : k.Value) (n : Int) (t' : Tables) : Prop where
  valid : t'.Valid
  upserted : t.Upserted k (k.key a) n t'
  stored : ⟨n, a⟩ ∈ (t'.table k).rows
  last : (t'.table k).last = (t.table k).last + 1
  /-- A row under a new key stands after all others. -/
  appended : (∀ r ∈ (t.table k).rows, k.key r.value ≠ k.key a) →
    (t'.table k).rows = (t.table k).rows ++ [⟨n, a⟩]

/-- The entries of a release, in the order in which they were stored. -/
def EntriesOf (t : Tables) (release : Int) : List Entry :=
  (t.entries.rows.filter (·.value.owner == release)).map (·.value.value)

variable {t t' : Tables} {n repository resource release : Int}

theorem Has.of_same {k : Kind} {a : k.Value} (h : t.Has k a) (hsame : t'.table k = t.table k) :
    t'.Has k a := by
  rw [Has, hsame]
  exact h

namespace Stores

variable {k : Kind} {a : k.Value}

theorem has (h : t.Stores k a n t') : t'.Has k a := ⟨n, h.stored⟩

theorem kept (h : t.Stores k a n t') {r : Row k.Value} (hr : r ∈ (t.table k).rows)
    (hkey : k.key r.value ≠ k.key a) : r ∈ (t'.table k).rows :=
  (h.upserted.row.others r hkey).mpr hr

theorem has_kept (h : t.Stores k a n t') {b : k.Value} (hkey : k.key b ≠ k.key a)
    (hb : t.Has k b) : t'.Has k b := by
  obtain ⟨m, hm⟩ := hb
  exact ⟨m, h.kept hm hkey⟩

/-- No number goes out of use when a row is stored. -/
theorem has_number (h : t.Stores k a n t') {m : Int} (hm : (t.table k).has m = true) :
    (t'.table k).has m = true := by
  obtain ⟨r, hr, rfl⟩ := Table.has_iff.mp hm
  by_cases hkey : k.key r.value = k.key a
  · rw [h.upserted.row.kept r hr hkey]
    exact Table.has_of_mem h.stored
  · exact Table.has_of_mem (h.kept hr hkey)

end Stores

namespace Valid

private theorem put_stores (h : t.Valid) (k : Kind) [BEq k.Key] [LawfulBEq k.Key] (a : k.Value)
    (hvalid : (t.replaced k ((t.table k).put k.key a).1).Valid) :
    t.Stores k a ((t.table k).put k.key a).2 (t.replaced k ((t.table k).put k.key a).1) := by
  have hupserted : t.Upserted k (k.key a) ((t.table k).put k.key a).2
      (t.replaced k ((t.table k).put k.key a).1) :=
    (h.putMerging_upserts k a fun _ _ => rfl).1
  refine ⟨hvalid, hupserted, ?_, ?_, fun hnew => ?_⟩
  · rw [table_replaced_self]
    exact Table.put_mem
  · rw [table_replaced_self]
    rfl
  · rw [table_replaced_self, Table.put_of_new hnew]
    rfl

/-! ### Rows -/

theorem putService_stores {s : Service} (h : t.Valid)
    (howner : t.repositories.has repository = true)
    (hfits : Param.bind (Param.ofService ⟨repository, .ofService s⟩) = .ok ()) :
    ∃ t' n, t.putService repository s = .ok (t', n) ∧
      t.Stores .services ⟨repository, .ofService s⟩ n t' := by
  have hput := putService_eq (s := s) howner
  rw [hfits] at hput
  exact ⟨_, _, hput, h.put_stores .services _ (h.putService hput)⟩

theorem putResource_stores {r : Resource} {link : Option Int} (h : t.Valid)
    (howner : t.repositories.has repository = true)
    (hlink : ∀ s, link = some s → t.services.has s = true)
    (hfits : Param.bind (Param.ofResource ⟨repository, .ofResource r link⟩) = .ok ()) :
    ∃ t' n, t.putResource repository r link = .ok (t', n) ∧
      t.Stores .resources ⟨repository, .ofResource r link⟩ n t' := by
  have hrequire : link.elim (.ok ()) t.services.require = .ok () := by
    cases link with
    | none => rfl
    | some s => exact require_of_has (hlink s rfl)
  have hput : t.putResource repository r link = _ := putResource_eq howner
  rw [hfits, hrequire] at hput
  exact ⟨_, _, hput, h.put_stores .resources _ (h.putResource hput)⟩

theorem putAttribute_stores {a : Attribute} (h : t.Valid)
    (howner : t.resources.has resource = true)
    (hfits : Param.bind (Param.ofAttribute ⟨resource, a⟩) = .ok ()) :
    ∃ t' n, t.putAttribute resource a = .ok t' ∧ t.Stores .attributes ⟨resource, a⟩ n t' := by
  have hput := putAttribute_eq t resource a
  rw [hfits, require_of_has howner] at hput
  exact ⟨_, _, hput, h.put_stores .attributes _ (h.putAttribute hput)⟩

theorem putSource_stores {x : SnippetBundle} (h : t.Valid)
    (howner : t.resources.has resource = true)
    (hfits : Param.bind (Param.ofSource ⟨resource, x⟩) = .ok ()) :
    ∃ t' n, t.putSource resource x = .ok t' ∧ t.Stores .sources ⟨resource, x⟩ n t' := by
  have hput := putSource_eq t resource x
  rw [hfits, require_of_has howner] at hput
  exact ⟨_, _, hput, h.put_stores .sources _ (h.putSource hput)⟩

theorem putRelease_stores {r : ReleaseRecord} (h : t.Valid)
    (howner : t.repositories.has repository = true)
    (hfits : Param.bind (Param.ofRelease ⟨repository, { r with id := none }⟩) = .ok ()) :
    ∃ t' n, t.putRelease repository r = .ok (t', n) ∧
      t.Stores .releases ⟨repository, { r with id := none }⟩ n t' := by
  have hput := putRelease_eq (r := r) howner
  rw [hfits] at hput
  exact ⟨_, _, hput, h.put_stores .releases _ (h.putRelease hput)⟩

end Valid

/-! ### Rows that do not fit -/

theorem putService_fails {s : Service} (howner : t.repositories.has repository = true)
    (hfits : Param.bind (Param.ofService ⟨repository, .ofService s⟩) ≠ .ok ()) :
    ∃ f, t.putService repository s = .error f ∧ f.isRefusal = false := by
  obtain ⟨f, hf, hrefusal⟩ := Param.exists_error_of_bind hfits
  exact ⟨f, by rw [putService_eq howner, hf]; rfl, hrefusal⟩

theorem putResource_fails {r : Resource} {link : Option Int}
    (howner : t.repositories.has repository = true)
    (hfits : Param.bind (Param.ofResource ⟨repository, .ofResource r link⟩) ≠ .ok ()) :
    ∃ f, t.putResource repository r link = .error f ∧ f.isRefusal = false := by
  obtain ⟨f, hf, hrefusal⟩ := Param.exists_error_of_bind hfits
  exact ⟨f, by rw [putResource_eq howner, hf]; rfl, hrefusal⟩

theorem putAttribute_fails {a : Attribute}
    (hfits : Param.bind (Param.ofAttribute ⟨resource, a⟩) ≠ .ok ()) :
    ∃ f, t.putAttribute resource a = .error f ∧ f.isRefusal = false := by
  obtain ⟨f, hf, hrefusal⟩ := Param.exists_error_of_bind hfits
  exact ⟨f, by rw [putAttribute_eq, hf]; rfl, hrefusal⟩

theorem putSource_fails {x : SnippetBundle}
    (hfits : Param.bind (Param.ofSource ⟨resource, x⟩) ≠ .ok ()) :
    ∃ f, t.putSource resource x = .error f ∧ f.isRefusal = false := by
  obtain ⟨f, hf, hrefusal⟩ := Param.exists_error_of_bind hfits
  exact ⟨f, by rw [putSource_eq, hf]; rfl, hrefusal⟩

/-! ### Entries -/

private theorem addEntry_stores {e : Entry} (howner : t.releases.has release = true)
    (hfits : Param.bind (Param.ofEntry ⟨release, e⟩) = .ok ())
    (hkey : ∀ x ∈ t.EntriesOf release, x.key ≠ e.key) :
    ∃ t', t.addEntry release e = .ok t' ∧ t'.releases = t.releases ∧
      t'.EntriesOf release = t.EntriesOf release ++ [e] := by
  have hnew : (t.entries.values.any fun p => p.owner == release && p.value.key == e.key) =
      false := by
    simp only [List.any_eq_false, Table.values, List.mem_map, Bool.and_eq_true, beq_iff_eq]
    rintro p ⟨r, hr, rfl⟩ ⟨howned, hsame⟩
    refine hkey r.value.value (List.mem_map.mpr ⟨r, ?_, rfl⟩) hsame
    simpa using ⟨hr, howned⟩
  have hadd := addEntry_eq t release e
  rw [hfits, hnew, require_of_has howner] at hadd
  refine ⟨_, hadd, rfl, ?_⟩
  simp [EntriesOf, Table.append]

private theorem addEntries_stores {es : List Entry} (howner : t.releases.has release = true)
    (hfits : ∀ e ∈ es, Param.bind (Param.ofEntry ⟨release, e⟩) = .ok ())
    (hkeys : (t.EntriesOf release ++ es).Pairwise (·.key ≠ ·.key)) :
    ∃ t', es.foldlM (fun t e => t.addEntry release e) t = .ok t' ∧
      t'.EntriesOf release = t.EntriesOf release ++ es := by
  induction es generalizing t with
  | nil => exact ⟨t, rfl, (List.append_nil _).symm⟩
  | cons e es ih =>
    obtain ⟨he, hrest⟩ := List.forall_mem_cons.mp hfits
    have hnew : ∀ x ∈ t.EntriesOf release, x.key ≠ e.key :=
      fun x hx => (List.pairwise_append.mp hkeys).2.2 x hx e List.mem_cons_self
    obtain ⟨u, hu, hreleases, hentries⟩ := addEntry_stores howner he hnew
    have hmore : (u.EntriesOf release ++ es).Pairwise (·.key ≠ ·.key) := by
      rwa [hentries, List.append_assoc, List.singleton_append]
    obtain ⟨t', ht', hall⟩ := ih (hreleases ▸ howner) hrest hmore
    refine ⟨t', ?_, ?_⟩
    · rw [List.foldlM_cons, hu]
      exact ht'
    · rw [hall, hentries, List.append_assoc, List.singleton_append]

/-- Entries that fit are stored when their keys differ, in the place of those that the release had
before; the entries of other releases stay. -/
theorem Valid.replaceEntries_stores {es : List Entry} (h : t.Valid)
    (howner : t.releases.has release = true)
    (hrelease : (Param.number release).fault? = none)
    (hfits : ∀ e ∈ es, Param.bind (Param.ofEntry ⟨release, e⟩) = .ok ())
    (hkeys : es.Pairwise (·.key ≠ ·.key)) :
    ∃ t', t.replaceEntries release es = .ok t' ∧ t'.Valid ∧ t'.EntriesOf release = es ∧
      (∃ entries, t' = { t with entries }) ∧
      ∀ other, other ≠ release → t'.EntriesOf other = t.EntriesOf other := by
  have hnone : EntriesOf { t with entries := t.entries.erase (·.value.owner == release) } release =
      [] := by
    simp [EntriesOf, Table.erase, List.filter_filter]
  obtain ⟨t', hadd, hentries⟩ := addEntries_stores
    (t := { t with entries := t.entries.erase (·.value.owner == release) }) howner hfits
    (by rwa [hnone, List.nil_append])
  have hreplace : t.replaceEntries release es = .ok t' := by
    rw [Tables.replaceEntries, Param.bind_of_fits hrelease]
    exact hadd
  obtain ⟨hsame, hothers⟩ := replaceEntries_touched hreplace
  refine ⟨t', hreplace, h.replaceEntries hreplace, ?_, hsame, fun other hother => ?_⟩
  · rw [hentries, hnone, List.nil_append]
  · refine congrArg (List.map _) (hothers _ fun r hr => ?_)
    rw [hr]
    exact beq_eq_false_iff_ne.mpr hother.symm

end Tables

end ProviderCatalog.Store

namespace ProviderCatalog.Store

open Schema (Attribute Resource ResourceKind Service SnippetBundle)

variable {α κ : Type}

namespace Table

/-- What belongs to a row of another table, in the order in which it was stored. -/
def partsOf (t : Table (Part α)) (n : Int) : List α :=
  (t.values.filter (·.owner == n)).map (·.value)

theorem select_owner_eq (t : Table (Part α)) (n : Int) :
    (t.select (·.owner == n)).map (·.value.value) = t.partsOf n := by
  rw [partsOf, values, List.filter_map, List.map_map, select]
  rfl

theorem find?_owner_eq (t : Table (Part α)) (n : Int) :
    (t.find? (·.owner == n)).map (·.value.value) = (t.partsOf n).head? := by
  rw [← select_owner_eq, List.head?_map, select, List.head?_filter]
  rfl

/-- What is appended for a row belongs to it, after what belonged to it already. -/
theorem partsOf_append {t t' : Table (Part α)} {n : Int} {as : List α}
    (h : t'.values = t.values ++ as.map (⟨n, ·⟩)) : t'.partsOf n = t.partsOf n ++ as := by
  rw [partsOf, h, List.filter_append, List.map_append, partsOf]
  simp [List.filter_map, Function.comp_def]

/-- What is appended for a row belongs to no other row. -/
theorem partsOf_append_of_ne {t t' : Table (Part α)} {m n : Int} {as : List α}
    (h : t'.values = t.values ++ as.map (⟨n, ·⟩)) (hne : n ≠ m) : t'.partsOf m = t.partsOf m := by
  simp [partsOf, h, hne]

/-- Nothing belongs to a row that is not there. -/
theorem OwnedBy.owner_ne_of_fresh {β : Type} {t : Table (Part α)} {owners : Table β} {n : Int}
    (h : t.OwnedBy Part.owner owners) (hn : owners.has n = false) {p : Part α}
    (hp : p ∈ t.values) : p.owner ≠ n := by
  rintro rfl
  obtain ⟨r, hr, rfl⟩ := List.mem_map.mp hp
  exact Bool.false_ne_true (hn.symm.trans (h r hr))

theorem OwnedBy.partsOf_eq_nil {β : Type} {t : Table (Part α)} {owners : Table β} {n : Int}
    (h : t.OwnedBy Part.owner owners) (hn : owners.has n = false) : t.partsOf n = [] := by
  rw [partsOf, List.filter_eq_nil_iff.mpr, List.map_nil]
  exact fun p hp howner => h.owner_ne_of_fresh hn hp (beq_iff_eq.mp howner)

end Table

/-- Rows whose keys differ. -/
def Kind.Distinct (k : Kind) (as : List k.Value) : Prop := as.Pairwise fun a b => k.key a ≠ k.key b

/-- The last of the rows has a key that is new to the others. -/
theorem Kind.Distinct.new {t : Tables} {k : Kind} {a : k.Value}
    (h : k.Distinct ((t.table k).values ++ [a])) :
    ∀ r ∈ (t.table k).rows, k.key r.value ≠ k.key a :=
  fun _ hr => (List.pairwise_append.mp h).2.2 _ (List.mem_map_of_mem hr) a List.mem_cons_self

namespace Tables

variable {t t' u : Tables} {repository other m n : Int} {link link' : Option Int} {q r : Resource}

/-- A resource has a row with a number, and its attributes and its source, and nothing else, belong
to the row. -/
structure Describes (t : Tables) (repository : Int) (link : Option Int) (r : Resource) (n : Int) :
    Prop where
  row : (⟨n, ⟨repository, .ofResource r link⟩⟩ : Row (Part StoredResource)) ∈ t.resources.rows
  attributes : t.attributes.partsOf n = r.attributes
  sources : t.sources.partsOf n = r.source.toList

/-- The tables before and after a resource was appended with everything that belongs to it, under a
number that is new. -/
structure Appends (t : Tables) (repository : Int) (link : Option Int) (r : Resource) (n : Int)
    (t' : Tables) : Prop where
  fresh : t.resources.has n = false
  rows : t'.resources.rows = t.resources.rows ++ [⟨n, ⟨repository, .ofResource r link⟩⟩]
  attributes : t'.attributes.values = t.attributes.values ++ r.attributes.map (⟨n, ·⟩)
  sources : t'.sources.values = t.sources.values ++ r.source.toList.map (⟨n, ·⟩)

theorem Appends.describes (h : t.Appends repository link r n t') (hvalid : t.Valid) :
    t'.Describes repository link r n where
  row := h.rows ▸ List.mem_append_right _ List.mem_cons_self
  attributes := by
    rw [Table.partsOf_append h.attributes, hvalid.attributesOwned.partsOf_eq_nil h.fresh,
      List.nil_append]
  sources := by
    rw [Table.partsOf_append h.sources, hvalid.sourcesOwned.partsOf_eq_nil h.fresh,
      List.nil_append]

theorem Appends.values (h : t.Appends repository link r n t') :
    t'.resources.values = t.resources.values ++ [⟨repository, .ofResource r link⟩] := by
  rw [Table.values, h.rows, List.map_append]
  rfl

/-- A resource that is appended takes nothing away from others. -/
theorem Describes.kept (hq : t.Describes other link' q m)
    (h : t.Appends repository link r n t') : t'.Describes other link' q m := by
  have hne : n ≠ m := by
    rintro rfl
    exact Bool.false_ne_true (h.fresh.symm.trans (Table.has_of_mem hq.row))
  exact ⟨h.rows ▸ List.mem_append_left _ hq.row,
    (Table.partsOf_append_of_ne h.attributes hne).trans hq.attributes,
    (Table.partsOf_append_of_ne h.sources hne).trans hq.sources⟩

/-! ### New rows -/

/-- A row under a new key stands after the others. -/
theorem Stores.values_append {k : Kind} {a : k.Value} (h : t.Stores k a n u)
    (hdistinct : k.Distinct ((t.table k).values ++ [a])) :
    (u.table k).values = (t.table k).values ++ [a] := by
  rw [Table.values, h.appended hdistinct.new, List.map_append]
  rfl

/-- A row under a new key has a new number. -/
theorem Stores.fresh {k : Kind} {a : k.Value} (h : t.Stores k a n u)
    (hnew : ∀ r ∈ (t.table k).rows, k.key r.value ≠ k.key a) : (t.table k).has n = false := by
  rw [Bool.eq_false_iff]
  intro hn
  obtain ⟨r, hr, hid⟩ := Table.has_iff.mp hn
  have hascending := (h.valid.sound k).ascending
  rw [h.appended hnew] at hascending
  have habove : r.id < n := (List.pairwise_append.mp hascending).2.2 r hr _ (List.mem_singleton_self _)
  omega

/-- Rows stand with different keys after those of a table if their keys differ from each other and
from those of the table. -/
theorem Valid.distinct_append (h : t.Valid) (k : Kind) {β : Type} {f : β → k.Value} {as : List β}
    (has : as.Pairwise fun a b => k.key (f a) ≠ k.key (f b))
    (hnew : ∀ p ∈ (t.table k).values, ∀ a ∈ as, k.key p ≠ k.key (f a)) :
    k.Distinct ((t.table k).values ++ as.map f) := by
  refine List.pairwise_append.mpr ⟨List.pairwise_map.mpr (h.sound k).keyed,
    List.pairwise_map.mpr has, fun p hp q hq => ?_⟩
  obtain ⟨a, ha, rfl⟩ := List.mem_map.mp hq
  exact hnew p hp a ha

/-- The attributes of a resource that is new have new keys if their names differ. -/
theorem Valid.distinct_attributes (h : t.Valid) (hn : t.resources.has n = false)
    {as : List Attribute} (hnames : (as.map (·.name)).Nodup) :
    Kind.Distinct .attributes (t.attributes.values ++ as.map (⟨n, ·⟩)) :=
  h.distinct_append .attributes
    ((List.pairwise_map.mp hnames).imp fun hne hsame => hne (Prod.mk.inj hsame).2)
    fun _ hp _ _ hsame => h.attributesOwned.owner_ne_of_fresh hn hp (Prod.mk.inj hsame).1

/-- The source of a resource that is new has a new key. -/
theorem Valid.distinct_sources (h : t.Valid) (hn : t.resources.has n = false)
    (x? : Option SnippetBundle) :
    Kind.Distinct .sources (t.sources.values ++ x?.toList.map (⟨n, ·⟩)) := by
  refine h.distinct_append .sources ?_ fun _ hp _ _ => h.sourcesOwned.owner_ne_of_fresh hn hp
  cases x? with
  | none => exact .nil
  | some x => exact List.pairwise_singleton _ _

/-! ### What is read -/

section Reading

/-- A resource is found by its name and its kind. -/
theorem Describes.resourceId? (hr : t.Describes repository link r n) (h : t.Valid)
    (hrepository : (Param.number repository).fault? = none)
    (hname : (Param.text r.name).fault? = none) :
    t.resourceId? repository r.name r.kind.toText = .ok (some n) := by
  have hsame (k : ResourceKind) : (k.toText == r.kind.toText) = (k == r.kind) := by
    cases k <;> cases r.kind <;> decide
  have hbind : Param.bind [.number repository, .text r.name, .text r.kind.toText] = .ok () :=
    (Param.bind_of_two_fit hrepository hname _).trans (Param.bind_of_fits (Param.kind_fits r.kind) [])
  have hkey : (fun p : Part StoredResource => p.owner == repository && p.value.name == r.name &&
      p.value.kind == r.kind) = (resourceKey · == (repository, r.name, r.kind)) :=
    funext fun p => Bool.and_assoc ..
  have hfind : t.resources.find? (resourceKey · == (repository, r.name, r.kind)) = some _ :=
    h.resources.find?_eq_some.mpr ⟨hr.row, rfl⟩
  rw [Tables.resourceId?, hbind]
  simp only [hsame, hkey, hfind]
  rfl

theorem Describes.attributesOf (hr : t.Describes repository link r n)
    (hn : (Param.number n).fault? = none) : t.attributesOf n = .ok r.attributes := by
  rw [Tables.attributesOf, Param.bind_of_fits hn, ← hr.attributes, ← Table.select_owner_eq]
  rfl

theorem Describes.source? (hr : t.Describes repository link r n)
    (hn : (Param.number n).fault? = none) : t.source? n = .ok r.source := by
  have hread : t.source? n = .ok (t.sources.partsOf n).head? := by
    rw [Tables.source?, Param.bind_of_fits hn, ← Table.find?_owner_eq]
    rfl
  rw [hread, hr.sources]
  cases r.source <;> rfl

/-- The name of the service with a number. -/
def serviceNamed? (t : Tables) (n : Int) : Option Text :=
  (t.services.get? n).map (·.value.name)

/-- The name of the service of a resource is that of its link. -/
theorem Describes.serviceName? (hr : t.Describes repository link r n) (h : t.Valid)
    (hn : (Param.number n).fault? = none) :
    t.serviceName? n = .ok (link.bind t.serviceNamed?) := by
  rw [Tables.serviceName?, Param.bind_of_fits hn, h.resources.get?_eq_some.mpr hr.row]
  refine congrArg Except.ok ?_
  cases link with
  | none => rfl
  | some s =>
    rw [Option.bind_some, serviceNamed?]
    change (t.services.get? s).bind _ = _
    cases t.services.get? s <;> rfl

/-- A number keeps its name when services are stored. -/
theorem Stores.serviceNamed?_kept {s : StoredService}
    (hrow : t.Stores .services ⟨repository, s⟩ n u) (h : t.Valid)
    (hm : t.services.has m = true) : u.serviceNamed? m = t.serviceNamed? m := by
  obtain ⟨p, hp, rfl⟩ := Table.has_iff.mp hm
  rw [serviceNamed?, serviceNamed?, h.services.get?_eq_some.mpr hp]
  by_cases hkey : serviceKey p.value = (repository, s.name)
  · rw [hrow.upserted.row.kept p hp hkey, hrow.valid.services.get?_eq_some.mpr hrow.stored]
    exact congrArg some (Prod.mk.inj hkey).2.symm
  · rw [hrow.valid.services.get?_eq_some.mpr (hrow.kept hp hkey)]

end Reading

end Tables

end ProviderCatalog.Store
