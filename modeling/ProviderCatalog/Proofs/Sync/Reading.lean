import ProviderCatalog.Proofs.Schema.Extracting
import ProviderCatalog.Proofs.Store.Hosted
import ProviderCatalog.Proofs.Sync.Definitions

/-!
# Reading back what the sources of a repository say

Indexing a repository that has no resources yet appends every resource that its sources describe,
with its attributes and its source. If all values fit, and the attributes of each resource have
different names, the store reads back exactly the resources that were described, and for each of
them the same attributes in the same order, the same source, and the name of the service whose
directory it has.

## Main definitions

* `serviceNameFor?`: the name of the service that a resource belongs to.
* `ReadsBack`: a store reads resources back as they were described.

## Main results

* `DescribesAll.readsBack`: resources that are described are read back.
* `indexDefinitions_reads_back`: so are those that were indexed.
-/

namespace ProviderCatalog

open Schema (Attribute Resource Service SnippetBundle)
open Store (Kind Param Part StoredResource Table Tables)

/-! ### Directories of services -/

namespace Schema

theorem segmentAfterServices_ne_empty (segments : List Text) :
    segmentAfterServices segments ≠ some [] := by
  induction segments with
  | nil => exact nofun
  | cons a segments ih =>
    cases segments with
    | nil => exact nofun
    | cons b segments =>
      rw [segmentAfterServices]
      split
      · split
        · exact nofun
        · rename_i hb
          intro h
          rw [Option.some.inj h] at hb
          exact hb rfl
      · exact ih

/-- A service has the directory that its path belongs to. -/
theorem Service.directory_of_source {source : Go.Source} {s : Service}
    (h : Service.ofSource? source = .ok (some s)) : s.directory = serviceDirectory? source.path := by
  rw [Service.ofSource?] at h
  split at h
  · exact nomatch h
  · split at h
    · rename_i p rest _
      cases hname : Checked.nonEmptyText (p :: rest) with
      | valid n =>
        rw [hname] at h
        cases h
        rfl
      | invalid issues =>
        rw [hname] at h
        exact nomatch h
    · exact nomatch h

theorem directory_ne_empty_of_services {sources : List Go.Source} {ss : List Service}
    (h : services sources = .ok ss) : ∀ s ∈ ss, s.directory ≠ some [] := by
  obtain ⟨found, hfound, hss⟩ := except_bind_eq_ok.mp h
  obtain rfl : found.filterMap id = ss := Except.ok.inj hss
  intro s hs
  obtain ⟨s?, hs?, rfl⟩ := List.mem_filterMap.mp hs
  obtain ⟨source, -, hsource⟩ := exists_of_mem_mapM hfound hs?
  rw [Service.directory_of_source hsource]
  exact segmentAfterServices_ne_empty _

end Schema

namespace Sync

variable {σ : State} {t u t' : Tables} {id : Int} {links : ServiceLinks} {ss : List Service}
  {rs : List Resource} {r : Resource} {d : Definitions} {resourcePrefix : Text}

/-- The name of the last of some services whose directory is that of a resource. -/
def serviceNameFor? (ss : List Service) (r : Resource) : Option Text :=
  r.serviceDirectory.bind fun d => lastNamed? d ss

/-- A store reads the resources of a repository back as they were described: all of them and no
others, and for each of them the same attributes in the same order, the same source and the name of
its service. -/
structure ReadsBack (store : Store) (id : Int) (ss : List Service) (rs : List Resource) : Prop where
  resources : ∃ listed, store.resources (some id) none = .ok listed ∧
    listed.Perm (rs.map fun r =>
      { r with attributes := [], source := none, serviceDirectory := none })
  parts : ∀ r ∈ rs, ∃ n, store.resourceId? id r.name r.kind.toText = .ok (some n) ∧
    store.attributes n = .ok r.attributes ∧ store.source? n = .ok r.source ∧
    store.serviceName? n = .ok (serviceNameFor? ss r)

/-- The resources of a repository that had none are listed after they were appended. -/
theorem DescribesAll.resourcesOf (h : DescribesAll id links rs t t')
    (hnone : ∀ p ∈ t.resources.values, p.owner ≠ id) (hid : (Param.number id).fault? = none) :
    ∃ listed, t'.resourcesOf (some id) none = .ok listed ∧
      listed.Perm (rs.map fun r =>
        { r with attributes := [], source := none, serviceDirectory := none }) := by
  refine ⟨_, Tables.CanHost.resourcesOf_eq t' hid, ?_⟩
  have hold : t.resources.values.filter (·.owner == id) = [] :=
    List.filter_eq_nil_iff.mpr fun p hp howner => hnone p hp (beq_iff_eq.mp howner)
  have hall : (rs.map (resourceRow id links)).filter (·.owner == id) =
      rs.map (resourceRow id links) :=
    List.filter_eq_self.mpr fun p hp => by
      obtain ⟨r, -, rfl⟩ := List.mem_map.mp hp
      exact beq_self_eq_true id
  rw [h.values, List.filter_append, hold, hall, List.nil_append, List.map_map]
  refine ((List.mergeSort_perm _ _).map _).trans (List.Perm.of_eq ?_)
  rw [List.map_map]
  rfl

/-- Nothing is linked to the empty directory if no service has it. -/
theorem lastNamed?_empty (h : ∀ s ∈ ss, s.directory ≠ some []) : lastNamed? [] ss = none := by
  rw [lastNamed?, Option.map_eq_none_iff, List.find?_eq_none]
  exact fun s hs hsame => h s (List.mem_reverse.mp hs) (beq_iff_eq.mp hsame)

/-- A resource is linked to the last service with its directory. -/
theorem ServicesIndexed.linkOf_named {lines : List LogLine}
    (h : ServicesIndexed [] id ss [] t links u lines)
    (hdirectories : ∀ s ∈ ss, s.directory ≠ some []) (r : Resource) :
    (linkOf links r).bind u.serviceNamed? = serviceNameFor? ss r := by
  have hnamed (d : Text) : linkedName? u links d = lastNamed? d ss :=
    (h.named rfl hdirectories d).trans (Option.or_none ..)
  refine (hnamed (r.serviceDirectory.getD [])).trans ?_
  rw [serviceNameFor?]
  cases r.serviceDirectory with
  | none => exact lastNamed?_empty hdirectories
  | some d => rfl

/-- What is described of resources is read back. -/
theorem DescribesAll.parts (h : DescribesAll id links rs t t') (hvalid : t'.Valid)
    (hid : (Param.number id).fault? = none) (hroom : t'.resources.last < 2 ^ 63)
    (hr : r ∈ rs) (hname : (Param.text r.name).fault? = none) :
    ∃ n, t'.resourceId? id r.name r.kind.toText = .ok (some n) ∧
      t'.attributesOf n = .ok r.attributes ∧ t'.source? n = .ok r.source ∧
      t'.serviceName? n = .ok ((linkOf links r).bind t'.serviceNamed?) := by
  obtain ⟨n, hn⟩ := h.described r hr
  have hfits : (Param.number n).fault? = none :=
    hvalid.resources.fits_of_has (Table.has_of_mem hn.row) hroom
  exact ⟨n, hn.resourceId? hvalid hid hname, hn.attributesOf hfits, hn.source? hfits,
    hn.serviceName? hvalid hfits⟩

/-- The rows of resources of a repository that has none have new keys, which differ if their names
and kinds do. -/
theorem distinct_resourceRow (h : t.Valid) (hnone : ∀ p ∈ t.resources.values, p.owner ≠ id)
    (hkeys : (rs.map nameAndKind).Nodup) (links : ServiceLinks) :
    Kind.Distinct .resources (t.resources.values ++ rs.map (resourceRow id links)) :=
  h.distinct_append .resources
    ((List.pairwise_map.mp hkeys).imp fun hne hsame => hne (Prod.mk.inj hsame).2)
    fun p hp _ _ hsame => hnone p hp (Prod.mk.inj hsame).1

/-- No two resources that files describe have the same name and kind, and no service that they
describe has an empty directory. -/
theorem definitions?_keys {files : List RepositoryFile}
    (h : definitions? resourcePrefix files = some d) :
    (d.resources.map nameAndKind).Nodup ∧
      ∀ ss, d.services = .ok ss → ∀ s ∈ ss, s.directory ≠ some [] := by
  obtain ⟨provider, -, hservices, hextract⟩ := definitions?_eq_some h
  exact ⟨Schema.Provider.nodup_keys_of_extract hextract,
    fun ss hss => Schema.directory_ne_empty_of_services (hservices.trans hss)⟩

/-- Resources and services that are described by the files of a repository without resources, and
that fit, are read back as they were described once they are indexed. -/
theorem indexDefinitions_reads_back (h : Indexable id resourcePrefix d t σ)
    (horder : σ.store.outOfOrder = []) (hnone : ∀ p ∈ t.resources.values, p.owner ≠ id)
    (hss : d.services = .ok ss) (hfits : DefinitionsFit [] ss d.resources)
    (hnames : ∀ r ∈ d.resources, (r.attributes.map (·.name)).Nodup) :
    ∃ τ, (indexDefinitions id resourcePrefix).run.run σ = (.ok d.resources.length, τ) ∧
      ReadsBack τ.store id ss d.resources := by
  have hattempts := h.attempts hss
  rw [horder] at hattempts
  obtain ⟨_, t', lines, hrun, rfl, links, u, first, more, hu, hr, -⟩ := hattempts.stores hfits
  obtain ⟨files, -, hfiles⟩ := h.files
  obtain ⟨hkeys, hdirectories⟩ := definitions?_keys hfiles
  have hresources : u.resources = t.resources := hu.rows.elsewhere .resources nofun
  have hunone : ∀ p ∈ u.resources.values, p.owner ≠ id := hresources ▸ hnone
  have hall := hr.appended rfl hnames (distinct_resourceRow hu.rows.valid hunone hkeys links)
  have hroom : t'.resources.last < 2 ^ 63 := by
    have hlast := hr.last
    have hroom := h.resourcesRoom
    rw [hresources] at hlast
    omega
  have hread {α : Type} {o : Store.Operation} {table : String}
      {f : Tables → Except Store.Fault α} : (σ.carried t' lines).store.read o table f = f t' :=
    Store.read_inOrder (by rw [State.carried, State.withTables, horder]; rfl) rfl
  have hservices : t'.serviceNamed? = u.serviceNamed? := by
    funext n
    rw [Tables.serviceNamed?, hr.services, Tables.serviceNamed?]
  refine ⟨_, hrun, ?_, fun r hmem => ?_⟩
  · obtain ⟨listed, hlisted, hperm⟩ := hall.resourcesOf hunone h.fits
    exact ⟨listed, hread.trans hlisted, hperm⟩
  · have hname : (Param.text r.name).fault? = none :=
      Param.fits_of_bind (hfits.resources rfl r hmem).row
        (List.mem_cons_of_mem _ (List.mem_cons_of_mem _ List.mem_cons_self))
    obtain ⟨n, hid, hattributes, hsource, hservice⟩ := hall.parts hr.valid h.fits hroom hmem hname
    rw [hservices, hu.linkOf_named (hdirectories ss hss)] at hservice
    exact ⟨n, hread.trans hid, hread.trans hattributes, hread.trans hsource,
      hread.trans hservice⟩

/-! ### A resource of a service -/

/-- A source that registers a service, and a resource with two attributes. -/
def networkSource : RepositoryFile :=
  ⟨1, "services/net/registration.go", "registration.go", "go",
    "package net\nfunc (r Registration) Name() string \x7b return \"Network\" \x7d\n" ++
      ("var all = map[string]schema.Resource\x7b\"p_a\": a()\x7d\n" : Text) ++
      "func a() R \x7b return R\x7bSchema: S\x7b\"one\": \x7bMaxItems: 1\x7d, \"two\": " ++
      "\x7b\x7d\x7d\x7d \x7d\n", 1⟩

/-- The service that is registered. -/
def networkService : Service :=
  ⟨"Network", "services/net/registration.go", some "net", [], none⟩

/-- The calls that store the source for a repository. -/
def networkCalls : List Store.Call :=
  [⟨[], .insertRepository ⟨none, "x", "a/x", none, [], none, none⟩⟩,
    ⟨[], .insertFile networkSource⟩]

/-- A state with the source. -/
def networkState : State :=
  ⟨⟨.full 9 1 0, 0, .empty 1, 0, []⟩, Store.ready.after networkCalls, .empty, []⟩

/-- The name, the kind and the directory of the resource, with the names of its attributes. -/
def networkOutline : Text × Schema.ResourceKind × Option Text × List Text :=
  ("p_a", .resource, some "net", ["one", "two"])

/-- What the source says: the service, and the resource, which fits. -/
def saysNetwork (d : Definitions) : Bool :=
  decide (d.services = .ok [networkService] ∧
    d.resources.map (fun r => (r.name, r.kind, r.serviceDirectory, r.attributes.map (·.name))) =
      [networkOutline] ∧
    ∀ r ∈ d.resources, ResourceFits [] r)

set_option maxRecDepth 100000 in
private theorem networkSource_says :
    (definitions? "p" [networkSource]).any saysNetwork = true ∧
      networkState.store.outOfOrder = [] ∧
      networkState.store.files 1 = .ok [networkSource] ∧
      networkState.store.contents.repositories.has 1 = true ∧
      networkState.store.contents.repositories.last = 1 ∧
      networkState.store.contents.services.last = 0 ∧
      networkState.store.contents.resources = .empty := by
  decide +kernel

/-- The resource is read back with its attributes and the name of its service. -/
theorem indexDefinitions_reads_back_network :
    ∃ τ n as, (indexDefinitions 1 "p").run.run networkState = (.ok 1, τ) ∧
      τ.store.resourceId? 1 "p_a" "resource" = .ok (some n) ∧
      τ.store.attributes n = .ok as ∧ as.map (·.name) = ["one", "two"] ∧
      τ.store.serviceName? n = .ok (some "Network") := by
  obtain ⟨hd, horder, hfiles, hrepository, hrepositories, hservices, hresources⟩ :=
    networkSource_says
  obtain ⟨d, hdefined, hsays⟩ := (Option.any_eq_true _ _).mp hd
  obtain ⟨hss, hrs, hfits⟩ := of_decide_eq_true hsays
  obtain ⟨htables, hvalid⟩ := Store.ready_after networkCalls
  obtain ⟨r, hr, hshape⟩ := List.map_eq_singleton_iff.mp hrs
  simp only [networkOutline, Prod.mk.injEq] at hshape
  obtain ⟨hname, hkind, hdirectory, hnames⟩ := hshape
  have hindexable : Indexable 1 "p" d networkState.store.contents networkState := by
    refine ⟨htables, hvalid, hrepository, ⟨_, hfiles, hdefined⟩, ?_, fun ss hss' => ?_, ?_⟩
    · rw [hrepositories]
      decide
    · obtain rfl : ss = [networkService] := Except.ok.inj (hss'.symm.trans hss)
      rw [hservices]
      decide
    · rw [hresources, hr, List.length_singleton]
      decide
  obtain ⟨τ, hrun, -, hparts⟩ := indexDefinitions_reads_back hindexable horder
    (by rw [hresources]; exact nofun) hss ⟨fun _ => by decide +kernel, fun _ => hfits⟩ (by
      rw [hr]
      intro x hx
      rw [List.mem_singleton.mp hx, hnames]
      decide)
  obtain ⟨n, hid, hattributes, -, hservice⟩ := hparts r (hr ▸ List.mem_singleton_self r)
  rw [hr] at hrun
  rw [hname, hkind] at hid
  refine ⟨τ, n, r.attributes, hrun, hid, hattributes, hnames, hservice.trans ?_⟩
  rw [serviceNameFor?, hdirectory]
  decide

end Sync

end ProviderCatalog
