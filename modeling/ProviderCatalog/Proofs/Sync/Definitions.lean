import ProviderCatalog.Proofs.Store.Calls
import ProviderCatalog.Proofs.Sync.Indexing

/-!
# Indexing what the sources of a repository say

The stored sources of a repository say what its services and its resources are. Indexing attempts to
store all of them. A row that is refused is passed over with a warning, but a row with a value that
fits into no column ends the indexing, and the rows after it are lost.

## Main definitions

* `Definitions`, `definitions?`: what the sources of a repository say.
* `Indexable`: a repository whose definitions can be indexed.
* `HasDefinitions`: the definitions are stored.
* `DefinitionsIndexed`: the services were stored, and after them the resources.

## Main results

* `Indexable.attempts`: the rows that indexing attempts to store, in their order.
* `indexDefinitions_indexes`: what indexing stores and which warnings it gives.
-/

namespace ProviderCatalog.Sync

open Schema (Attribute Resource Service)
open Store (Operation Param Row Table Tables)

variable {σ : State} {t : Tables}

/-- What the sources of a repository say. -/
structure Definitions where
  services : Except Invalid (List Service)
  resources : List Resource
  /-- The warnings about files that are left out. -/
  leftOut : List Text
  /-- The warnings about registrations that are skipped. -/
  skipped : List Text
deriving DecidableEq

/-- What files say, if resources can be extracted from them. -/
def definitions? (resourcePrefix : Text) (files : List RepositoryFile) : Option Definitions :=
  match Schema.Provider.ofFiles resourcePrefix files with
  | .error _ => none
  | .ok (provider, leftOut) =>
    match provider.extract with
    | (.error _, _) => none
    | (.ok resources, skipped) =>
      some ⟨Schema.services provider.sources, resources, leftOut, skipped⟩

theorem definitions?_eq_some {resourcePrefix : Text} {files : List RepositoryFile}
    {d : Definitions} (h : definitions? resourcePrefix files = some d) :
    ∃ provider, Schema.Provider.ofFiles resourcePrefix files = .ok (provider, d.leftOut) ∧
      Schema.services provider.sources = d.services ∧
      provider.extract = (.ok d.resources, d.skipped) := by
  unfold definitions? at h
  split at h
  · exact nomatch h
  · rename_i provider leftOut hprovider
    split at h
    · exact nomatch h
    · rename_i resources skipped hextract
      cases h
      exact ⟨provider, hprovider, rfl, hextract⟩

/-- All rows that are attempted to be stored fit. -/
structure DefinitionsFit (refused : List Operation) (ss : List Service) (rs : List Resource) :
    Prop where
  services : refused.contains .insertService = false → ∀ s ∈ ss, ServiceFits s
  resources : refused.contains .insertResource = false → ∀ r ∈ rs, ResourceFits refused r

/-- The last service of each name is stored, and so is the last resource of each name and kind with
its parts, unless they are refused. -/
structure HasDefinitions (refused : List Operation) (id : Int) (t : Tables) (ss : List Service)
    (rs : List Resource) : Prop where
  services : refused.contains .insertService = false →
    ∀ s, IsLast (·.name) s ss → t.Has .services ⟨id, .ofService s⟩
  resources : refused.contains .insertResource = false →
    ∀ r, IsLast nameAndKind r rs → HasResource refused id t r

/-- The lines that indexing adds to the log. -/
def indexingLines (refused : List Operation) (d : Definitions) (ss : List Service) :
    List LogLine :=
  warningLines d.leftOut ++
    refusals refused .insertService (ss.map aboutService) ++
    warningLines d.skipped ++ d.resources.flatMap (resourceRefusals refused)

/-- The stored files of a repository say what its services and its resources are, and their rows can
be numbered. -/
structure Indexable (id : Int) (resourcePrefix : Text) (d : Definitions) (t : Tables) (σ : State) :
    Prop where
  tables : σ.store.tables = some t
  valid : t.Valid
  repository : t.repositories.has id = true
  files : ∃ files, σ.store.files id = .ok files ∧ definitions? resourcePrefix files = some d
  repositoriesRoom : t.repositories.last < 2 ^ 63
  servicesRoom : ∀ ss, d.services = .ok ss → t.services.last + ss.length < 2 ^ 63
  resourcesRoom : t.resources.last + d.resources.length < 2 ^ 63

section Definitions

variable {id : Int} {resourcePrefix : Text} {d : Definitions} {ss : List Service}

namespace Indexable

theorem fits (h : Indexable id resourcePrefix d t σ) : (Param.number id).fault? = none :=
  h.valid.repositories.fits_of_has h.repository h.repositoriesRoom

private theorem run_files {files : List RepositoryFile} (hfiles : σ.store.files id = .ok files) :
    (orFail .store (reading (·.files id))).run.run σ = (.ok files, σ) := by
  rw [run_orFail, run_reading, hfiles]

/-- The services are stored first, then the resources. -/
private theorem run_eq (h : Indexable id resourcePrefix d t σ) (hss : d.services = .ok ss) :
    (indexDefinitions id resourcePrefix).run.run σ =
      (do
        (logging .warning d.leftOut : StateM State Unit)
        let links ← indexServices id [] ss
        (logging .warning d.skipped : StateM State Unit)
        indexResources id links d.resources
        return d.resources.length : Step Nat).run.run σ := by
  obtain ⟨files, hfiles, hd⟩ := h.files
  obtain ⟨provider, hprovider, hservices, hextract⟩ := definitions?_eq_some hd
  rw [indexDefinitions, run_bind_ok (run_files hfiles)]
  simp only [hprovider, hservices, hss, hextract]

/-- Services that cannot be read fail the indexing before anything is stored. -/
private theorem run_invalid (h : Indexable id resourcePrefix d t σ) {e : Invalid}
    (he : d.services = .error e) :
    (indexDefinitions id resourcePrefix).run.run σ =
      (.error (.invalid e), σ.carried t (warningLines d.leftOut)) := by
  obtain ⟨files, hfiles, hd⟩ := h.files
  obtain ⟨provider, hprovider, hservices, -⟩ := definitions?_eq_some hd
  rw [indexDefinitions, run_bind_ok (run_files hfiles), State.carried, withTables_of_eq h.tables]
  simp only [hprovider, hservices, he]
  rfl

end Indexable

/-- The tables and the lines of the log after the services were stored, and after them the
resources. -/
def DefinitionsIndexed (refused : List Operation) (id : Int) (d : Definitions) (ss : List Service)
    (t t' : Tables) (lines : List LogLine) : Prop :=
  ∃ links u first more, ServicesIndexed refused id ss [] t links u first ∧
    ResourcesIndexed refused id links d.resources u t' more ∧
    lines = warningLines d.leftOut ++ (first ++ (warningLines d.skipped ++ more))

/-- The resources are attempted in the tables that the services left. -/
theorem Indexable.attempts (h : Indexable id resourcePrefix d t σ) (hss : d.services = .ok ss) :
    Attempts (indexDefinitions id resourcePrefix) σ
      (DefinitionsFit σ.store.outOfOrder ss d.resources) fun count t' lines =>
        count = d.resources.length ∧
          DefinitionsIndexed σ.store.outOfOrder id d ss t t' lines := by
  have hservices := indexServices_attempts (σ := σ.carried t (warningLines d.leftOut))
    [] ss rfl h.valid h.repository h.fits nofun
  refine .of_run (h.run_eq hss) (.logged h.tables ?_)
  refine (hservices.bind (q := σ.store.outOfOrder.contains .insertResource = false →
      ∀ r ∈ d.resources, ResourceFits σ.store.outOfOrder r)
    fun links u lines hu => .logged rfl ?_).mono ?_ fun _ _ _ hS => hS
  · have hrepositories : u.repositories = t.repositories := hu.rows.elsewhere .repositories nofun
    have hresources : u.resources = t.resources := hu.rows.elsewhere .resources nofun
    have hlast := hu.last
    have hroom := h.servicesRoom ss hss
    have hstored := indexResources_attempts
      (σ := (σ.carried t (warningLines d.leftOut)).carried u lines
        |>.carried u (warningLines d.skipped))
      d.resources rfl hu.rows.valid (hrepositories ▸ h.repository) h.fits hu.links (by omega)
      (hresources ▸ h.resourcesRoom)
    refine (hstored.returning d.resources.length).mono Iff.rfl ?_
    rintro _ t' more ⟨rfl, -, hr⟩
    exact ⟨rfl, links, u, lines, more, hu, hr, rfl⟩
  · exact ⟨fun hfits => ⟨hfits.1, hfits.2⟩, fun hfits => ⟨hfits.1, hfits.2⟩⟩

private theorem indexDefinitions_attempts (h : Indexable id resourcePrefix d t σ)
    (hss : d.services = .ok ss) :
    Attempts (indexDefinitions id resourcePrefix) σ
      (DefinitionsFit σ.store.outOfOrder ss d.resources) fun count t' lines =>
        count = d.resources.length ∧
          HasDefinitions σ.store.outOfOrder id t' ss d.resources ∧
          lines = indexingLines σ.store.outOfOrder d ss := by
  refine (h.attempts hss).mono Iff.rfl ?_
  rintro _ t' _ ⟨rfl, links, u, first, more, hu, hr, rfl⟩
  refine ⟨rfl, ⟨fun horder s hs => (hu.stored horder hs).of_same hr.services, hr.stored⟩, ?_⟩
  rw [hu.rows.lines, hr.lines]
  simp only [indexingLines, List.append_assoc]

/-- Indexing stores every row that is not refused, with a warning for each row that is, if all rows
that are attempted fit into their columns. If one does not, indexing fails, and it fails before it
stores anything if a service cannot be read. -/
theorem indexDefinitions_indexes (h : Indexable id resourcePrefix d t σ) :
    let refused := σ.store.outOfOrder
    let indexing := (indexDefinitions id resourcePrefix).run.run σ
    (∀ ss, d.services = .ok ss → DefinitionsFit refused ss d.resources →
        indexing.1 = .ok d.resources.length ∧
          (∃ t', indexing.2.store.tables = some t' ∧
            HasDefinitions refused id t' ss d.resources) ∧
          indexing.2.log = σ.log ++ indexingLines refused d ss) ∧
      (∀ ss, d.services = .ok ss → ¬DefinitionsFit refused ss d.resources →
        ∃ f, indexing.1 = .error (.store f) ∧ f.isRefusal = false) ∧
      ∀ e, d.services = .error e →
        indexing.1 = .error (.invalid e) ∧ indexing.2.store = σ.store := by
  intro refused indexing
  refine ⟨fun ss hss hfits => ?_, fun ss hss hnot => ?_, fun e he => ?_⟩
  · obtain ⟨count, t', lines, hrun, rfl, hhas, rfl⟩ :=
      (indexDefinitions_attempts h hss).stores hfits
    have hindexing : indexing = _ := hrun
    rw [hindexing]
    exact ⟨rfl, ⟨t', rfl, hhas⟩, rfl⟩
  · obtain ⟨f, τ, hrun, hrefusal⟩ := (indexDefinitions_attempts h hss).fails hnot
    have hindexing : indexing = _ := hrun
    exact ⟨f, by rw [hindexing], hrefusal⟩
  · have hindexing : indexing = _ := h.run_invalid he
    rw [hindexing, State.carried, withTables_of_eq h.tables]
    exact ⟨rfl, rfl⟩

end Definitions

/-! ### A source with one resource -/

/-- A source that registers a resource with two attributes, the first of which has a number of
items. -/
def listSource (items : Text) : RepositoryFile :=
  ⟨1, "a.go", "a.go", "go",
    "package p\nvar all = map[string]schema.Resource\x7b\"p_a\": a()\x7d\n" ++
      ("func a() R \x7b return R\x7bSchema: S\x7b\"one\": \x7bMaxItems: " : Text) ++ items ++
      "\x7d, \"two\": \x7b\x7d\x7d\x7d \x7d\n", 1⟩

/-- The store of a repository with the source. -/
def listStore (items : Text) : Store :=
  Store.ready.after [⟨[], .insertRepository ⟨none, "x", "a/x", none, [], none, none⟩⟩,
    ⟨[], .insertFile (listSource items)⟩]

/-- A state with the store. -/
def listState (items : Text) : State :=
  ⟨⟨.full 9 1 0, 0, .empty 1, 0, []⟩, listStore items, .empty, []⟩

/-- What the source says: no service, and one resource of which the last attribute fits. -/
def saysList (fits : Bool) (d : Definitions) : Bool :=
  decide (d.services = .ok [] ∧ d.resources.length = 1) && d.resources.all fun r =>
    decide (ResourceFits [] r) == fits &&
      r.attributes.getLast?.any fun a => decide (AttributeFits a)

private theorem of_saysList {fits : Bool} {d : Definitions} (h : saysList fits d = true) :
    d.services = .ok [] ∧ ∃ r before a, d.resources = [r] ∧ (ResourceFits [] r ↔ fits = true) ∧
      r.attributes = before ++ [a] ∧ AttributeFits a := by
  obtain ⟨hall, hr⟩ := Bool.and_eq_true_iff.mp h
  obtain ⟨hservices, hlength⟩ := of_decide_eq_true hall
  obtain ⟨r, hresources⟩ := List.length_eq_one_iff.mp hlength
  rw [hresources, List.all_cons, List.all_nil, Bool.and_true] at hr
  obtain ⟨hfits, hlast⟩ := Bool.and_eq_true_iff.mp hr
  obtain ⟨a, ha, hafits⟩ := (Option.any_eq_true _ _).mp hlast
  obtain ⟨before, hbefore⟩ := List.getLast?_eq_some_iff.mp ha
  refine ⟨hservices, r, before, a, hresources, ?_, hbefore, of_decide_eq_true hafits⟩
  rw [← beq_iff_eq.mp hfits, decide_eq_true_iff]

/-- A number of items that fits, and one that does not. -/
def itemNumbers : List (Text × Bool) := [("1", true), ("9223372036854775808", false)]

set_option maxRecDepth 100000 in
private theorem listSource_says : ∀ x ∈ itemNumbers,
    (definitions? "p" [listSource x.1]).any (saysList x.2) = true ∧
      (listStore x.1).outOfOrder = [] ∧ (listStore x.1).files 1 = .ok [listSource x.1] ∧
      (listStore x.1).contents.repositories.has 1 = true ∧
      (listStore x.1).contents.repositories.last = 1 ∧
      (listStore x.1).contents.services.last = 0 ∧
      (listStore x.1).contents.resources.last = 0 := by
  decide +kernel

private theorem listState_indexable {items : Text} {fits : Bool} (h : (items, fits) ∈ itemNumbers) :
    ∃ d, Indexable 1 "p" d (listStore items).contents (listState items) ∧
      (listState items).store.outOfOrder = [] ∧ saysList fits d = true := by
  obtain ⟨hd, horder, hfiles, hrepository, hrepositories, hservices, hresources⟩ :=
    listSource_says _ h
  obtain ⟨d, hdefined, hsays⟩ := (Option.any_eq_true _ _).mp hd
  obtain ⟨hnone, r, -, -, hr, -⟩ := of_saysList hsays
  obtain ⟨htables, hvalid⟩ := Store.ready_after
    [⟨[], .insertRepository ⟨none, "x", "a/x", none, [], none, none⟩⟩,
      ⟨[], .insertFile (listSource items)⟩]
  refine ⟨d, ⟨htables, hvalid, hrepository, ⟨_, hfiles, hdefined⟩, ?_, fun ss hss => ?_, ?_⟩,
    horder, hsays⟩
  · dsimp only at hrepositories
    rw [hrepositories]
    decide
  · obtain rfl : ss = [] := Except.ok.inj (hss.symm.trans hnone)
    dsimp only at hservices
    rw [hservices]
    decide
  · dsimp only at hresources
    rw [hresources, hr, List.length_singleton]
    decide

/-- The resource is stored with its attributes if the number of items fits. -/
theorem indexDefinitions_indexes_list :
    ∃ d t', Indexable 1 "p" d (listStore "1").contents (listState "1") ∧
      ((indexDefinitions 1 "p").run.run (listState "1")).1 = .ok 1 ∧
      ((indexDefinitions 1 "p").run.run (listState "1")).2.store.tables = some t' ∧
      ∀ r ∈ d.resources, HasResource [] 1 t' r := by
  have hitems : (("1" : Text), true) ∈ itemNumbers := by simp [itemNumbers]
  obtain ⟨d, hindexable, horder, hsays⟩ := listState_indexable hitems
  obtain ⟨hservices, r, -, -, hresources, hfits, -⟩ := of_saysList hsays
  obtain ⟨hstores, -, -⟩ := indexDefinitions_indexes hindexable
  simp only [horder] at hstores
  have hall : DefinitionsFit [] [] d.resources := by
    refine ⟨nofun, fun _ x hx => ?_⟩
    rw [hresources, List.mem_singleton] at hx
    exact hx ▸ hfits.mpr rfl
  obtain ⟨hcount, ⟨t', ht', hhas⟩, -⟩ := hstores [] hservices hall
  refine ⟨d, t', hindexable, ?_, ht', fun x hx => ?_⟩
  · rw [hcount, hresources]
    rfl
  · rw [hresources, List.mem_singleton] at hx
    subst hx
    exact hhas.resources rfl x ⟨[], [], hresources, List.forall_mem_nil _⟩

/-- If the number of items does not fit, the attribute after it is lost. -/
theorem indexDefinitions_loses_rows :
    ¬∀ (id : Int) (resourcePrefix : Text) (d : Definitions) (t : Tables) (σ : State),
      Indexable id resourcePrefix d t σ → σ.store.outOfOrder = [] →
        ∃ t', ((indexDefinitions id resourcePrefix).run.run σ).2.store.tables = some t' ∧
          ∀ r, IsLast nameAndKind r d.resources → ∀ a, IsLast (·.name) a r.attributes →
            AttributeFits a → ∃ n, t'.Has .attributes ⟨n, a⟩ := by
  intro h
  have hitems : (("9223372036854775808" : Text), false) ∈ itemNumbers := by simp [itemNumbers]
  obtain ⟨d, hindexable, horder, hsays⟩ := listState_indexable hitems
  obtain ⟨-, r, before, a, hresources, -, hbefore, hfits⟩ := of_saysList hsays
  obtain ⟨t', ht', hstored⟩ := h 1 "p" d _ _ hindexable horder
  have hr : IsLast nameAndKind r d.resources := ⟨[], [], hresources, List.forall_mem_nil _⟩
  have ha : IsLast (·.name) a r.attributes := ⟨before, [], hbefore, List.forall_mem_nil _⟩
  obtain ⟨n, m, hm⟩ := hstored r hr a ha hfits
  have hlost : ((indexDefinitions 1 "p").run.run
      (listState "9223372036854775808")).2.store.tables.map (·.attributes.rows) = some [] := by
    decide +kernel
  rw [ht'] at hlost
  have hrows : t'.attributes.rows = [] := Option.some.inj hlost
  have hnone : (⟨m, ⟨n, a⟩⟩ : Row (Store.Part Attribute)) ∈ t'.attributes.rows := hm
  rw [hrows] at hnone
  exact nomatch hnone

end ProviderCatalog.Sync
