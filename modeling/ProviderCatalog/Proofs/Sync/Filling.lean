import ProviderCatalog.Proofs.Archive.Retained
import ProviderCatalog.Proofs.Sync.Editing

/-!
# The steps that fill the tables

Storing the files of an archive, what the sources say and the releases only ever fills the tables
for the repository that is synced, whatever the remote side answers and wherever a step fails. The
links between directories and services stay within the repository.

## Main definitions

* `LinksOwned`: the services that directories are linked to belong to a repository.
* `fillFrom`: what a sync does once its archive is there.

## Main results

* `storeFiles_fills`, `indexDefinitions_fills`, `captureReleases_fills`: the three steps.
* `fillFrom_fills`: all of them.
-/

namespace ProviderCatalog.Sync

open ProviderCatalog.Configuration (RepositorySource)
open Schema (Attribute Resource Service)
open Changelog (Release ReleaseRecord)
open Store (Tables)
open Store.Tables (Fill Filled)

/-- The services that directories are linked to belong to a repository. -/
def LinksOwned (id : Int) (links : ServiceLinks) (t : Tables) : Prop :=
  ∀ l ∈ links, t.services.IsOwned l.2 id

variable {id : Int} {P : Tables → Prop}

theorem LinksOwned.filled {links : ServiceLinks} {t t' : Tables} (h : Filled id t t')
    (hlinks : LinksOwned id links t) : LinksOwned id links t' :=
  fun l hl => h.services (hlinks l hl)

theorem LinksOwned.lookup {links : ServiceLinks} {t : Tables} (hlinks : LinksOwned id links t)
    {directory : Text} {n : Int} (h : links.lookup directory = some n) :
    t.services.IsOwned n id := by
  induction links with
  | nil => exact nomatch h
  | cons l links ih =>
    rw [List.lookup_cons] at h
    split at h
    · cases h
      exact hlinks l List.mem_cons_self
    · exact ih (fun x hx => hlinks x (List.mem_cons_of_mem _ hx)) h

/-! ### What the sources say -/

private theorem insertService_fills (s : Service) :
    Leads (Edits (Filled id)) (On P) (ExceptT.mk (writing (·.insertService id s)))
      fun n => On fun t => t.services.IsOwned n id := by
  refine .write fun t t' n _ h => ⟨.single (.putService h), ?_⟩
  obtain ⟨-, -, rfl, rfl⟩ := Tables.putService_ok h
  exact .put_self _ _ _

theorem indexServices_fills (links : ServiceLinks) (ss : List Service) :
    Leads (Edits (Filled id)) (On (LinksOwned id links)) (indexServices id links ss)
      fun links' => On (LinksOwned id links') := by
  induction ss generalizing links with
  | nil => exact .pure fun _ h => h
  | cons s ss ih =>
    refine .bindKeeping ((insertService_fills s).orWarn _) (fun _ _ => LinksOwned.filled)
      fun id? => ?_
    split
    · rename_i n p rest _
      refine (ih ((p :: rest, n) :: links)).pre fun σ hσ t ht l hl => ?_
      rcases List.mem_cons.mp hl with rfl | hl
      · exact (hσ t ht).1 n rfl
      · exact (hσ t ht).2 l hl
    · exact (ih links).pre fun σ hσ t ht => (hσ t ht).2

private theorem insertResource_fills (r : Resource) (link : Option Int) :
    Leads (Edits (Filled id)) (On fun t => ∀ s, link = some s → t.services.IsOwned s id)
      (ExceptT.mk (writing (·.insertResource id r link)))
      fun n => On fun t => t.resources.IsOwned n id := by
  refine .write fun t t' n hlink h => ⟨.single (.putResource hlink h), ?_⟩
  obtain ⟨-, -, -, rfl, rfl⟩ := Tables.putResource_ok h
  exact .put_self _ _ _

private theorem insertAttribute_fills (n : Int) (a : Attribute) :
    Leads (Edits (Filled id)) (On fun t => t.resources.IsOwned n id)
      (ExceptT.mk (updating (·.insertAttribute n a))) fun _ => On fun _ => True :=
  .update fun _ _ howned h => ⟨.single (.putAttribute howned h), trivial⟩

theorem indexAttributes_fills (n : Int) (resource : Text) (as : List Attribute) :
    Leads (Edits (Filled id)) (On fun t => t.resources.IsOwned n id) (indexAttributes n resource as)
      fun _ => On fun t => t.resources.IsOwned n id := by
  induction as with
  | nil => exact .pure fun _ h => h
  | cons a as ih =>
    refine .bindKeeping ((insertAttribute_fills n a).orWarn _) (fun _ _ => Filled.resources)
      fun _ => ?_
    exact ih.pre fun σ hσ t ht => (hσ t ht).2

theorem indexResource_fills (links : ServiceLinks) (r : Resource) :
    Leads (Edits (Filled id)) (On (LinksOwned id links)) (indexResource id links r)
      fun _ _ => True := by
  refine .bind (.pre ((insertResource_fills r _).orWarn _)
    fun σ hσ t ht s hs => (hσ t ht).lookup hs) fun id? => ?_
  cases id? with
  | none => exact .pure fun _ _ => trivial
  | some n =>
    refine .bind ((indexAttributes_fills n r.name r.attributes).pre
      fun σ hσ t ht => hσ t ht n rfl) fun _ => ?_
    cases r.source with
    | none => exact .pure fun _ _ => trivial
    | some x =>
      refine .bind ((Leads.update (R := fun _ => True) fun t t' howned h => ?_).orWarn _) fun _ =>
        .pure fun _ _ => trivial
      exact ⟨.single (.putSource howned h), trivial⟩

theorem indexResources_fills (links : ServiceLinks) (rs : List Resource) :
    Leads (Edits (Filled id)) (On (LinksOwned id links)) (indexResources id links rs)
      fun _ _ => True := by
  induction rs with
  | nil => exact .pure fun _ _ => trivial
  | cons r rs ih =>
    have hr : Leads (Edits (Filled id)) (On (LinksOwned id links)) (indexResource id links r)
        fun _ => On fun _ => True := (indexResource_fills links r).post fun _ _ _ _ _ => trivial
    refine .bindKeeping hr (fun _ _ => LinksOwned.filled) fun _ => ?_
    exact ih.pre fun σ hσ t ht => (hσ t ht).2

/-- Storing what the sources say fills the tables, wherever it fails. -/
theorem indexDefinitions_fills (resourcePrefix : Text) :
    Leads (Edits (Filled id)) (On fun _ => True) (indexDefinitions id resourcePrefix)
      fun _ _ => True := by
  refine .bind (.orFail _ (.reading _)) fun files => ?_
  split
  · exact .throw _
  · refine .bind (.logging _ _) fun _ => ?_
    split
    · exact .throw _
    · rename_i provider _ _ services _
      refine .bind ((indexServices_fills [] services).pre fun _ _ _ _ _ hl => nomatch hl)
        fun links => .bind (.logging _ _) fun _ => ?_
      split
      · exact .throw _
      · exact .bind (indexResources_fills links _) fun _ => .pure fun _ _ => trivial

/-! ### Files -/

private theorem storeFile_fills {f : RepositoryFile} {s s' : Store} (hf : f.repositoryId = id)
    (h : storeFile f s = .ok s') : Edited (Filled id) s s' := by
  unfold storeFile at h
  cases hinsert : s.insertFile f with
  | error e =>
    rw [hinsert] at h
    exact nomatch h
  | ok u =>
    rw [hinsert] at h
    cases h
    obtain ⟨-, t, t', ht, hput, rfl⟩ := Store.update_ok.mp hinsert
    exact ⟨rfl, ht ▸ .some (.single (.putFile hf hput))⟩

/-- The files of an archive are stored by a walk over it, and its warnings go to the log. -/
theorem run_storeFiles (id : Int) (data : Bytes) (σ : State) :
    let outcome := Archive.ingestBytes storeFile id data σ.store
    (storeFiles id data).run.run σ = ((outcome.result.map fun _ => ()).mapError .archive,
      { σ with
        store := outcome.store
        log := σ.log ++ outcome.warnings.map (⟨.warning, ·⟩) }) := by
  rw [storeFiles, run_bind, run_get]
  dsimp only
  rw [run_bind, run_modify]
  dsimp only
  rw [run_bind, run_lift]
  dsimp only
  cases (Archive.ingestBytes storeFile id data σ.store).result <;> rfl

/-- Storing the files of an archive fills the tables, wherever it ends. -/
theorem storeFiles_fills (data : Bytes) :
    Leads (Edits (Filled id)) (On fun _ => True) (storeFiles id data) fun _ _ => True := by
  have hwalk (s : Store) : Edited (Filled id) s (Archive.ingestBytes storeFile id data s).store :=
    Archive.ingestBytes_moves (R := Edited (Filled id)) (fun _ _ _ hf h => storeFile_fills hf h)
      data s
  intro σ _
  rw [run_storeFiles]
  exact ⟨⟨rfl, hwalk _⟩, fun _ _ => trivial⟩

/-! ### Releases -/

section Leads

variable {E : Tables → Tables → Prop} [IsPreorder Tables E] {resourcePrefix : Text}

/-- A release is stored by a write for its row and one for its entries. -/
theorem storeRelease_leads
    (hrelease : ∀ t t' n r, t.putRelease id r = .ok (t', n) → E t t')
    (hentries : ∀ t t' n es, t.replaceEntries n es = .ok t' → E t t') (r : Release)
    (record : ReleaseRecord) :
    Leads (Edits E) (On fun _ => True) (storeRelease id resourcePrefix r record)
      fun _ => On fun _ => True := by
  have hinsert : Leads (Edits E) (On fun _ => True)
      (ExceptT.mk (writing (·.insertRelease id record))) fun _ => On fun _ => True :=
    .write fun t t' n _ h => ⟨hrelease t t' n record h, trivial⟩
  refine .bind (.orFail _ hinsert) fun n => ?_
  split
  · exact .throw _
  · exact .orFail _ (.update fun t t' _ h => ⟨hentries t t' n _ h, trivial⟩)

theorem storeReleases_leads
    (hrelease : ∀ t t' n r, t.putRelease id r = .ok (t', n) → E t t')
    (hentries : ∀ t t' n es, t.replaceEntries n es = .ok t' → E t t')
    (releases : List (Release × ReleaseRecord)) :
    Leads (Edits E) (On fun _ => True) (storeReleases id resourcePrefix releases)
      fun _ _ => True := by
  induction releases with
  | nil => exact .pure fun _ _ => trivial
  | cons r releases ih => exact .bind (storeRelease_leads hrelease hentries r.1 r.2) fun _ => ih

/-- Listing the tags does not touch the tables. -/
theorem listTags_leads (p : Plan) (remote : Remote) (fullName : Text) :
    Leads (Edits E) (On fun _ => True) (listTags p remote fullName)
      fun _ => On fun _ => True := by
  refine .bind (.answered _) fun answer => ?_
  split
  · exact .pure fun _ h => h
  · split
    · exact .bind (.logging _ _) fun _ => .pure fun _ h => h
    · exact .throw _

/-- The releases of a changelog move the tables the way that storing releases does. -/
theorem captureReleases_leads (p : Plan) (remote : Remote) (s : Remote.Summary)
    (hreleases : ∀ releases, Leads (Edits E) (On fun _ => True)
      (storeReleases id resourcePrefix releases) fun _ _ => True) :
    Leads (Edits E) (On fun _ => True) (captureReleases p remote id s resourcePrefix)
      fun _ _ => True := by
  refine .bind (.orFail _ (.reading _)) fun changelog? => ?_
  split
  · exact .throw _
  · dsimp only
    split
    · exact .bind (.throw _) fun _ => .bind (listTags_leads p remote s.fullName) fun tags =>
        .bind (hreleases _) fun _ => .pure fun _ _ => trivial
    · exact .bind (listTags_leads p remote s.fullName) fun tags =>
        .bind (hreleases _) fun _ => .pure fun _ _ => trivial

end Leads

private theorem storeRelease_fills (resourcePrefix : Text) (r : Release) (record : ReleaseRecord) :
    Leads (Edits (Filled id)) (On fun _ => True) (storeRelease id resourcePrefix r record)
      fun _ => On fun _ => True := by
  have hinsert : Leads (Edits (Filled id)) (On fun _ => True)
      (ExceptT.mk (writing (·.insertRelease id record)))
      fun n => On fun t => t.releases.IsOwned n id := by
    refine .write fun t t' n _ h => ⟨.single (.putRelease h), ?_⟩
    obtain ⟨-, -, rfl, rfl⟩ := Tables.putRelease_ok h
    exact .put_self _ _ _
  refine .bind (.orFail _ hinsert) fun n => ?_
  split
  · exact .throw _
  · exact .orFail _ (.update fun _ _ howned h => ⟨.single (.replaceEntries howned h), trivial⟩)

private theorem storeReleases_fills (resourcePrefix : Text)
    (releases : List (Release × ReleaseRecord)) :
    Leads (Edits (Filled id)) (On fun _ => True) (storeReleases id resourcePrefix releases)
      fun _ _ => True := by
  induction releases with
  | nil => exact .pure fun _ _ => trivial
  | cons r releases ih => exact .bind (storeRelease_fills resourcePrefix r.1 r.2) fun _ => ih

/-- Storing the releases fills the tables, wherever it fails. -/
theorem captureReleases_fills (p : Plan) (remote : Remote) (s : Remote.Summary)
    (resourcePrefix : Text) :
    Leads (Edits (Filled id)) (On fun _ => True) (captureReleases p remote id s resourcePrefix)
      fun _ _ => True :=
  captureReleases_leads p remote s (storeReleases_fills resourcePrefix)

/-! ### All of them -/

/-- What a sync does once its archive is there. -/
def fillFrom (p : Plan) (remote : Remote) (s : Remote.Summary) (r : RepositorySource) (id : Int)
    (data : Bytes) : Step Bool := do
  storeFiles id data
  (softly ("Failed to parse provider resources for " ++ s.name)
    (indexDefinitions id (p.prefixFor r)) : StateM State Unit)
  (softly ("Failed to ingest release metadata for " ++ s.name)
    (captureReleases p remote id s (p.prefixFor r)) : StateM State Unit)
  return true

/-- It fills the tables, and tells of the archive if it does not fail. -/
theorem fillFrom_fills (p : Plan) (remote : Remote) (s : Remote.Summary) (r : RepositorySource)
    (data : Bytes) :
    Leads (Edits (Filled id)) (fun _ => True) (fillFrom p remote s r id data)
      fun available _ => available = true := by
  refine .bind (storeFiles_fills data).anywhere fun _ => ?_
  refine .bind (.softly _ (indexDefinitions_fills _).anywhere) fun _ => ?_
  refine .bind (.softly _ (captureReleases_fills p remote s _).anywhere) fun _ => ?_
  exact .pure fun _ _ => rfl

end ProviderCatalog.Sync
