import ProviderCatalog.Proofs.Store.Validity
import Mathlib.Logic.Relation

/-!
# Filling the tables for one repository

A fill is one write for a repository that is there: of a file, a service, a resource, a release, or
of something that belongs to a resource or a release of the repository. Resources are linked to
services of the repository only. Fills change no record, take nothing away from its owner, and keep
the tables valid.

## Main definitions

* `Table.IsOwned`: a row has an owner.
* `Tables.Fill`, `Tables.Filled`: one fill for a repository, and any number of them.
* `Tables.Touched`: what a fill may do to each of the tables.
* `Tables.Secluded`: no resource of another repository is linked to a service of the repository.

## Main results

* `Tables.Fill.touched`: a fill does no more than that.
* `Tables.Fill.valid`, `Tables.Fill.linked`, `Tables.Fill.secluded`: fills keep tables valid and
  linked, and the repository secluded.
* `Tables.Filled.services`, `Tables.Filled.resources`: rows stay with their owners.
-/

namespace ProviderCatalog.Store

open Schema (Attribute Resource Service SnippetBundle)
open Changelog (Entry ReleaseRecord)
open Relation (ReflTransGen)

variable {α κ : Type}

/-- The row with the first number belongs to the row with the second. -/
def Table.IsOwned (t : Table (Part α)) (n owner : Int) : Prop :=
  ∃ r ∈ t.rows, r.id = n ∧ r.value.owner = owner

namespace Table.IsOwned

variable {t : Table (Part α)} {n owner : Int}

theorem has (h : t.IsOwned n owner) : t.has n = true := by
  obtain ⟨r, hr, hid, -⟩ := h
  exact has_iff.mpr ⟨r, hr, hid⟩

/-- Rows stay with their owners when the owner is part of the key. -/
theorem put [BEq κ] [LawfulBEq κ] {key : Part α → κ}
    (hkey : ∀ p q : Part α, key p = key q → p.owner = q.owner) (a : Part α)
    (h : t.IsOwned n owner) : (t.put key a).1.IsOwned n owner := by
  obtain ⟨r, hr, rfl, rfl⟩ := h
  obtain ⟨r', hr', hid, hsame⟩ := exists_mem_put key a hr
  exact ⟨r', hr', hid, hkey _ _ hsame⟩

/-- The row that was written belongs to the owner of the value. -/
theorem put_self [BEq κ] [LawfulBEq κ] (t : Table (Part α)) (key : Part α → κ) (a : Part α) :
    (t.put key a).1.IsOwned (t.put key a).2 a.owner :=
  ⟨_, put_mem, rfl, rfl⟩

/-- A row that was there before belonged to the owner that it has afterwards. -/
theorem of_put [BEq κ] [LawfulBEq κ] {key : Part α → κ}
    (hkey : ∀ p q : Part α, key p = key q → p.owner = q.owner) {a : Part α} (hsound : t.Sound key)
    (hthere : t.has n = true) (h : (t.put key a).1.IsOwned n owner) : t.IsOwned n owner := by
  obtain ⟨r, hr, rfl⟩ := has_iff.mp hthere
  obtain ⟨r', hr', hid, hsame⟩ := exists_mem_put key a hr
  obtain ⟨x, hx, hxid, rfl⟩ := h
  rw [(hsound.put a).eq_of_id hx hr' (hxid.trans hid.symm)]
  exact ⟨r, hr, rfl, hkey _ _ hsame.symm⟩

/-- A row of a sound table has one owner. -/
theorem unique {key : Part α → κ} (hsound : t.Sound key) {other : Int} (h : t.IsOwned n owner)
    (h' : t.IsOwned n other) : owner = other := by
  obtain ⟨r, hr, hid, rfl⟩ := h
  obtain ⟨r', hr', hid', rfl⟩ := h'
  rw [hsound.eq_of_id hr hr' (hid.trans hid'.symm)]

end Table.IsOwned

theorem serviceKey_owner (p q : Part StoredService) (h : serviceKey p = serviceKey q) :
    p.owner = q.owner :=
  congrArg Prod.fst h

theorem resourceKey_owner (p q : Part StoredResource) (h : resourceKey p = resourceKey q) :
    p.owner = q.owner :=
  congrArg Prod.fst h

theorem releaseKey_owner (p q : Part ReleaseRecord) (h : releaseKey p = releaseKey q) :
    p.owner = q.owner :=
  congrArg Prod.fst h

namespace Tables

/-- One write for the repository with a number. -/
inductive Fill (id : Int) : Tables → Tables → Prop
  | putFile {t t'} {f : RepositoryFile} (howner : f.repositoryId = id)
      (h : t.putFile f = .ok t') : Fill id t t'
  | putService {t t' n} {s : Service} (h : t.putService id s = .ok (t', n)) : Fill id t t'
  | putResource {t t' n} {r : Resource} {link : Option Int}
      (hlink : ∀ s, link = some s → t.services.IsOwned s id)
      (h : t.putResource id r link = .ok (t', n)) : Fill id t t'
  | putAttribute {t t' n} {a : Attribute} (howned : t.resources.IsOwned n id)
      (h : t.putAttribute n a = .ok t') : Fill id t t'
  | putSource {t t' n} {x : SnippetBundle} (howned : t.resources.IsOwned n id)
      (h : t.putSource n x = .ok t') : Fill id t t'
  | putRelease {t t' n} {r : ReleaseRecord} (h : t.putRelease id r = .ok (t', n)) : Fill id t t'
  | replaceEntries {t t' n} {es : List Entry} (howned : t.releases.IsOwned n id)
      (h : t.replaceEntries n es = .ok t') : Fill id t t'

/-- Any number of writes for the repository with a number. -/
abbrev Filled (id : Int) : Tables → Tables → Prop := ReflTransGen (Fill id)

/-- What one write for a repository does, table by table. -/
structure Touched (id : Int) (t t' : Tables) : Prop where
  repositories : t'.repositories = t.repositories
  files : t'.files = t.files ∨
    ∃ f : RepositoryFile, f.repositoryId = id ∧ t'.files = t.files.store f
  services : t'.services = t.services ∨ ∃ s, t'.services = (t.services.put serviceKey ⟨id, s⟩).1
  resources : t'.resources = t.resources ∨
    ∃ r : StoredResource, (∀ s, r.service = some s → t.services.IsOwned s id) ∧
      t'.resources = (t.resources.put resourceKey ⟨id, r⟩).1
  attributes : t'.attributes = t.attributes ∨
    ∃ n a, t.resources.IsOwned n id ∧ t'.attributes = (t.attributes.put attributeKey ⟨n, a⟩).1
  sources : t'.sources = t.sources ∨
    ∃ n x, t.resources.IsOwned n id ∧ t'.sources = (t.sources.put Part.owner ⟨n, x⟩).1
  releases : t'.releases = t.releases ∨ ∃ r, t'.releases = (t.releases.put releaseKey ⟨id, r⟩).1
  entries : t'.entries = t.entries ∨
    ∃ n, t.releases.IsOwned n id ∧ ∀ p : Row (Part Entry) → Bool,
      (∀ r : Row (Part Entry), r.value.owner = n → p r = false) →
        t'.entries.rows.filter p = t.entries.rows.filter p

/-- Adding entries touches no other table, and no row of another release. -/
private theorem addEntries_touched {t t' : Tables} {n : Int} {es : List Entry}
    (h : es.foldlM (fun t e => t.addEntry n e) t = .ok t') :
    (∃ x, t' = { t with entries := x }) ∧ ∀ p : Row (Part Entry) → Bool,
      (∀ r : Row (Part Entry), r.value.owner = n → p r = false) →
        t'.entries.rows.filter p = t.entries.rows.filter p := by
  induction es generalizing t with
  | nil =>
    cases h
    exact ⟨⟨_, rfl⟩, fun _ _ => rfl⟩
  | cons e es ih =>
    obtain ⟨u, hu, h⟩ := except_bind_eq_ok.mp ((List.foldlM_cons ..).symm.trans h)
    obtain ⟨-, -, -, rfl⟩ := addEntry_ok hu
    obtain ⟨⟨x, rfl⟩, hrows⟩ := ih h
    refine ⟨⟨x, rfl⟩, fun p hp => (hrows p hp).trans ?_⟩
    simp only [Table.append, List.filter_append, List.filter_cons, hp ⟨t.entries.next, ⟨n, e⟩⟩ rfl,
      Bool.false_eq_true, if_false, List.filter_nil, List.append_nil]

/-- Replacing the entries of a release changes the table of entries only. -/
theorem replaceEntries_touched {t t' : Tables} {n : Int} {es : List Entry}
    (h : t.replaceEntries n es = .ok t') :
    (∃ x, t' = { t with entries := x }) ∧ ∀ p : Row (Part Entry) → Bool,
      (∀ r : Row (Part Entry), r.value.owner = n → p r = false) →
        t'.entries.rows.filter p = t.entries.rows.filter p := by
  obtain ⟨-, hadd⟩ := replaceEntries_ok h
  obtain ⟨⟨x, rfl⟩, hrows⟩ := addEntries_touched hadd
  refine ⟨⟨x, rfl⟩, fun p hp => (hrows p hp).trans ?_⟩
  rw [Table.erase, List.filter_filter]
  refine List.filter_congr fun r _ => ?_
  by_cases hr : r.value.owner = n
  · simp only [hp r hr, Bool.false_and]
  · simp only [beq_eq_false_iff_ne.mpr hr, Bool.not_false, Bool.and_true]

/-- No resource of another repository is linked to a service of the repository with a number. -/
def Secluded (t : Tables) (id : Int) : Prop :=
  ∀ r ∈ t.resources.rows, r.value.owner ≠ id → ∀ n, r.value.value.service = some n →
    ¬t.services.IsOwned n id

namespace Secluded

variable {id n : Int} {t : Tables}

/-- A repository without services is secluded. -/
theorem of_services (h : ∀ s ∈ t.services.rows, s.value.owner ≠ id) : t.Secluded id := by
  rintro - - - - - ⟨s, hs, -, howner⟩
  exact h s hs howner

/-- If all links stay within repositories, every repository is secluded. -/
theorem of_linked (hlinked : t.Linked) (hvalid : t.Valid) (id : Int) : t.Secluded id := by
  intro r hr howner n hn howned
  obtain ⟨s, hs, hid, hsame⟩ := hlinked r hr n hn
  exact howner (hsame.symm.trans (Table.IsOwned.unique hvalid.services ⟨s, hs, hid, rfl⟩ howned))

end Secluded

namespace Fill

variable {id n owner : Int} {t t' : Tables}

private theorem untouched (id : Int) (t : Tables) : Touched id t t :=
  ⟨rfl, .inl rfl, .inl rfl, .inl rfl, .inl rfl, .inl rfl, .inl rfl, .inl rfl⟩

theorem touched (h : Fill id t t') : Touched id t t' := by
  cases h with
  | putFile howner h =>
    obtain ⟨-, -, rfl⟩ := putFile_ok h
    exact { untouched id t with files := .inr ⟨_, howner, rfl⟩ }
  | putService h =>
    obtain ⟨-, -, rfl, -⟩ := putService_ok h
    exact { untouched id t with services := .inr ⟨_, rfl⟩ }
  | putResource hlink h =>
    obtain ⟨-, -, -, rfl, -⟩ := putResource_ok h
    exact { untouched id t with resources := .inr ⟨_, hlink, rfl⟩ }
  | putAttribute howned h =>
    obtain ⟨-, -, rfl⟩ := putAttribute_ok h
    exact { untouched id t with attributes := .inr ⟨_, _, howned, rfl⟩ }
  | putSource howned h =>
    obtain ⟨-, -, rfl⟩ := putSource_ok h
    exact { untouched id t with sources := .inr ⟨_, _, howned, rfl⟩ }
  | putRelease h =>
    obtain ⟨-, -, rfl, -⟩ := putRelease_ok h
    exact { untouched id t with releases := .inr ⟨_, rfl⟩ }
  | replaceEntries howned h =>
    obtain ⟨⟨x, rfl⟩, hrows⟩ := replaceEntries_touched h
    exact { untouched id t with entries := .inr ⟨_, howned, hrows⟩ }

theorem valid (h : Fill id t t') (hvalid : t.Valid) : t'.Valid := by
  cases h with
  | putFile _ h => exact hvalid.putFile h
  | putService h => exact hvalid.putService h
  | putResource _ h => exact hvalid.putResource h
  | putAttribute _ h => exact hvalid.putAttribute h
  | putSource _ h => exact hvalid.putSource h
  | putRelease h => exact hvalid.putRelease h
  | replaceEntries _ h => exact hvalid.replaceEntries h

theorem services (h : Fill id t t') (howned : t.services.IsOwned n owner) :
    t'.services.IsOwned n owner := by
  rcases h.touched.services with hsame | ⟨s, hput⟩
  · exact hsame ▸ howned
  · exact hput ▸ howned.put serviceKey_owner _

theorem resources (h : Fill id t t') (howned : t.resources.IsOwned n owner) :
    t'.resources.IsOwned n owner := by
  rcases h.touched.resources with hsame | ⟨r, -, hput⟩
  · exact hsame ▸ howned
  · exact hput ▸ howned.put resourceKey_owner _

/-- A resource that is written is linked to a service of the repository, and services stay with
their owners. -/
theorem linked (h : Fill id t t') (hlinked : t.Linked) : t'.Linked := by
  intro r hr s hs
  rcases h.touched.resources with hsame | ⟨x, hlink, hput⟩
  · exact h.services (hlinked r (hsame ▸ hr) s hs)
  · rcases Table.mem_put (hput ▸ hr) with hr | rfl
    · exact h.services (hlinked r hr s hs)
    · exact h.services (hlink s hs)

/-- The repository stays secluded while it is filled. -/
theorem secluded (h : Fill id t t') (hvalid : t.Valid) (hsecluded : t.Secluded id) :
    t'.Secluded id := by
  intro r hr howner n hn howned
  have hr : r ∈ t.resources.rows := by
    rcases h.touched.resources with hsame | ⟨x, -, hput⟩
    · exact hsame ▸ hr
    · rcases Table.mem_put (hput ▸ hr) with hr | rfl
      · exact hr
      · exact absurd rfl howner
  refine hsecluded r hr howner n hn ?_
  rcases h.touched.services with hsame | ⟨s, hput⟩
  · exact hsame ▸ howned
  · exact .of_put serviceKey_owner hvalid.services (hvalid.linksThere r hr n hn) (hput ▸ howned)

end Fill

namespace Filled

variable {id n owner : Int} {t t' : Tables}

/-- Fills do not touch the records. -/
theorem repositories (h : Filled id t t') : t'.repositories = t.repositories := by
  induction h with
  | refl => rfl
  | tail _ h ih => exact h.touched.repositories.trans ih

theorem services (h : Filled id t t') (howned : t.services.IsOwned n owner) :
    t'.services.IsOwned n owner := by
  induction h with
  | refl => exact howned
  | tail _ h ih => exact h.services ih

theorem resources (h : Filled id t t') (howned : t.resources.IsOwned n owner) :
    t'.resources.IsOwned n owner := by
  induction h with
  | refl => exact howned
  | tail _ h ih => exact h.resources ih

end Filled

end Tables

end ProviderCatalog.Store
