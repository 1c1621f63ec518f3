import ProviderCatalog.Proofs.Store.Emptying
import ProviderCatalog.Proofs.Sync.Parallel

/-!
# Steps that do not see everything

Two states of the tables share their parts if they have the same files, services, resources,
attributes and sources, and records under the same numbers. What is read from those tables and
written to them is the same then, and they still share their parts afterwards. Neither a new text of
a record nor anything that is done to releases makes a difference to it.

States are alike if the tables of their stores are in a relation. A step respects the relation if it
gives the same result from alike states, and leads to alike states again: what the relation leaves
open makes no difference to the step. The steps that fill the tables from an archive respect that
tables share their parts.

## Main definitions

* `Tables.SameParts`: tables that share their parts.
* `Alike`: states whose tables are in a relation.
* `Respects`: steps to which nothing else makes a difference.

## Main results

* `SameParts.putFile` and the like: writes to tables that share their parts.
* `SameParts.deleteRepository`: the removal of a record from them.
* `Tables.Numbered.sameParts_putRepository`, `Tables.sameParts_putRelease`,
  `Tables.sameParts_replaceEntries`: what makes no difference.
* `Respects.bind`, `Respects.writing`, `Respects.orWarn` and the like: how steps are put together.
* `storeFiles_respects`, `indexDefinitions_respects`, `dropRecord_respects`: the steps of a sync.
-/

namespace ProviderCatalog

variable {α β ε : Type}

/-- Sequences agree that begin with the same result and agree in the rest. -/
theorem Agree.bind {γ : Type} {Q : β → γ → Prop} {x : Except ε α} {f : α → Except ε β}
    {g : α → Except ε γ} (h : ∀ a, Agree Q (f a) (g a)) : Agree Q (x >>= f) (x >>= g) := by
  cases x with
  | error e => exact .error e
  | ok a => exact h a

namespace Store

open Schema (Attribute Resource Service SnippetBundle)
open Changelog (Entry ReleaseRecord)

theorem Table.has_erase (table : Table α) (id n : Int) :
    (table.erase (·.id == id)).has n = (table.has n && n != id) := by
  rw [Bool.eq_iff_iff, Bool.and_eq_true, has_iff, has_iff, bne_iff_ne]
  constructor
  · rintro ⟨r, hr, rfl⟩
    obtain ⟨hmem, hid⟩ := List.mem_filter.mp hr
    exact ⟨⟨r, hmem, rfl⟩, fun h => by simp [h] at hid⟩
  · rintro ⟨⟨r, hr, rfl⟩, hid⟩
    exact ⟨r, List.mem_filter.mpr ⟨hr, by simpa using hid⟩, rfl⟩

namespace Tables

/-- The same files, services, resources, attributes and sources, and records under the same
numbers. -/
structure SameParts (t u : Tables) : Prop where
  files : t.files = u.files
  services : t.services = u.services
  resources : t.resources = u.resources
  attributes : t.attributes = u.attributes
  sources : t.sources = u.sources
  records : ∀ n, t.repositories.has n = u.repositories.has n

variable {t t' u : Tables} {n id : Int}

instance : Std.Refl SameParts := ⟨fun _ => ⟨rfl, rfl, rfl, rfl, rfl, fun _ => rfl⟩⟩

instance : Std.Symm SameParts where
  symm _ _ h := ⟨h.files.symm, h.services.symm, h.resources.symm, h.attributes.symm,
    h.sources.symm, fun n => (h.records n).symm⟩

instance : IsTrans Tables SameParts where
  trans _ _ _ h h' := ⟨h.files.trans h'.files, h.services.trans h'.services,
    h.resources.trans h'.resources, h.attributes.trans h'.attributes, h.sources.trans h'.sources,
    fun n => (h.records n).trans (h'.records n)⟩

instance : IsPreorder Tables SameParts where

/-! ### What makes no difference -/

/-- A new text of a record that is there makes no difference. -/
theorem Numbered.sameParts_putRepository {r : RepositoryRecord} (h : t.Numbered r.name id)
    (hput : t.putRepository r = .ok (t', n)) : SameParts t t' := by
  obtain ⟨-, rfl, -⟩ := putRepository_ok hput
  refine ⟨rfl, rfl, rfl, rfl, rfl, fun m => ?_⟩
  obtain ⟨x, hx, -⟩ := h
  rcases Table.putMerging_cases t.repositories (·.name) (succeeding { r with id := none })
    { r with id := none } with ⟨habsent, -⟩ | ⟨before, y, after, hrows, -, -, hput⟩
  · have hname : x.value.name = r.name := by simpa using List.find?_some hx
    exact absurd hname (habsent x (List.mem_of_find?_eq_some hx))
  · simp only [Table.has, hput, hrows, List.any_append, List.any_cons]

theorem sameParts_putRelease {r : ReleaseRecord} (hput : t.putRelease id r = .ok (t', n)) :
    SameParts t t' := by
  obtain ⟨-, -, rfl, -⟩ := putRelease_ok hput
  exact ⟨rfl, rfl, rfl, rfl, rfl, fun _ => rfl⟩

theorem sameParts_replaceEntries {es : List Entry} (h : t.replaceEntries n es = .ok t') :
    SameParts t t' := by
  obtain ⟨⟨x, rfl⟩, -⟩ := replaceEntries_touched h
  exact ⟨rfl, rfl, rfl, rfl, rfl, fun _ => rfl⟩

/-! ### Reads, writes and the removal of a record -/

namespace SameParts

theorem filesOf (h : SameParts t u) (n : Int) : t.filesOf n = u.filesOf n := by
  rw [Tables.filesOf, Tables.filesOf, h.files]

private theorem require (h : SameParts t u) (n : Int) :
    t.repositories.require n = u.repositories.require n := by
  rw [Table.require, Table.require, h.records]

theorem putFile (h : SameParts t u) (f : RepositoryFile) :
    Agree SameParts (t.putFile f) (u.putFile f) := by
  rw [Tables.putFile, Tables.putFile, h.require, h.files]
  exact .bind fun _ => .bind fun _ => .ok { h with files := rfl }

theorem putService (h : SameParts t u) (n : Int) (s : Service) :
    Agree (fun a b => SameParts a.1 b.1 ∧ a.2 = b.2) (t.putService n s) (u.putService n s) := by
  rw [Tables.putService, Tables.putService, h.require, h.services]
  exact .bind fun _ => .bind fun _ => .ok ⟨{ h with services := rfl }, rfl⟩

theorem putResource (h : SameParts t u) (n : Int) (r : Resource) (link : Option Int) :
    Agree (fun a b => SameParts a.1 b.1 ∧ a.2 = b.2) (t.putResource n r link)
      (u.putResource n r link) := by
  rw [Tables.putResource, Tables.putResource, h.require, h.services, h.resources]
  refine .bind fun _ => .bind fun _ => ?_
  have hsame (table : Table (Part StoredResource)) :
      SameParts { t with services := u.services, resources := table }
        { u with resources := table } := { h with services := rfl, resources := rfl }
  cases link with
  | none => exact .ok ⟨hsame _, rfl⟩
  | some s => exact .bind fun _ => .ok ⟨hsame _, rfl⟩

theorem putAttribute (h : SameParts t u) (n : Int) (a : Attribute) :
    Agree SameParts (t.putAttribute n a) (u.putAttribute n a) := by
  rw [Tables.putAttribute, Tables.putAttribute, h.resources, h.attributes]
  exact .bind fun _ => .bind fun _ => .ok { h with resources := rfl, attributes := rfl }

theorem putSource (h : SameParts t u) (n : Int) (x : SnippetBundle) :
    Agree SameParts (t.putSource n x) (u.putSource n x) := by
  rw [Tables.putSource, Tables.putSource, h.resources, h.sources]
  exact .bind fun _ => .bind fun _ => .ok { h with resources := rfl, sources := rfl }

theorem deleteRepository (h : SameParts t u) (n : Int) :
    Agree SameParts (t.deleteRepository n) (u.deleteRepository n) := by
  refine .bind fun _ => .ok ?_
  -- the cascade follows the numbers of the records only
  have hgone : t.repositories.meets (·.id == n) = u.repositories.meets (·.id == n) := by
    funext m
    rw [Table.meets_id, Table.meets_id, h.records]
  have hrecords (m : Int) : (t.repositories.erase (·.id == n)).has m =
      (u.repositories.erase (·.id == n)).has m := by
    rw [Table.has_erase, Table.has_erase, h.records]
  refine ⟨?_, ?_, ?_, ?_, ?_, hrecords⟩ <;>
    simp only [eraseRecords, eraseFiles, eraseServices, eraseResources, eraseReleases, hgone,
      h.files, h.services, h.resources, h.attributes, h.sources]

end SameParts

end Tables

end Store

end ProviderCatalog

namespace ProviderCatalog.Sync

open Schema (Attribute Resource Service)
open Store (Operation Tables)
open Store.Tables (SameParts)

variable {α β ε : Type} {E : Tables → Tables → Prop} {o : Operation} {table : String}
  {s s' : Store}

/-! ### Stores -/

instance [Std.Symm E] : Std.Symm (Edited E) where
  symm s s' h := by
    refine ⟨h.outOfOrder.symm, ?_⟩
    have htables := h.tables
    revert htables
    generalize s.tables = t, s'.tables = u
    rintro (hE | -)
    · exact .some (Std.Symm.symm _ _ hE)
    · exact .none

namespace Edited

variable {Q : α → β → Prop} (o : Operation) (table : String)

theorem reads {f : Tables → Except Store.Fault α} {g : Tables → Except Store.Fault β}
    (h : Edited E s s') (hfg : ∀ t u, E t u → Agree Q (f t) (g u)) :
    Agree Q (s.read o table f) (s'.read o table g) := by
  rw [Store.read, Store.read, Store.require, Store.require, h.outOfOrder]
  refine .bind fun _ => ?_
  have htables := h.tables
  revert htables
  generalize s.tables = t, s'.tables = u
  rintro (hE | -)
  · exact hfg _ _ hE
  · exact .error _

theorem writes {f : Tables → Except Store.Fault (Tables × α)}
    {g : Tables → Except Store.Fault (Tables × β)} (h : Edited E s s')
    (hfg : ∀ t u, E t u → Agree (fun a b => E a.1 b.1 ∧ Q a.2 b.2) (f t) (g u)) :
    Agree (fun a b => Edited E a.1 b.1 ∧ Q a.2 b.2) (s.write o table f) (s'.write o table g) := by
  rw [Store.write, Store.write, Store.require, Store.require, h.outOfOrder]
  refine .bind fun _ => ?_
  have htables := h.tables
  revert htables
  generalize s.tables = t, s'.tables = u
  rintro (hE | -)
  · have hagree := hfg _ _ hE
    revert hagree
    dsimp only
    generalize f _ = x, g _ = y
    rintro (hxy | e)
    · exact .ok ⟨⟨rfl, .some hxy.1⟩, hxy.2⟩
    · exact .error e
  · exact .error _

theorem updates {f g : Tables → Except Store.Fault Tables} (h : Edited E s s')
    (hfg : ∀ t u, E t u → Agree E (f t) (g u)) :
    Agree (Edited E) (s.update o table f) (s'.update o table g) := by
  have hwrites := h.writes o table (Q := fun _ _ : Unit => True)
    (f := fun t => return ((← f t), ())) (g := fun t => return ((← g t), ())) fun t u hE => by
      have hagree := hfg t u hE
      revert hagree
      generalize f t = x, g u = y
      rintro (hxy | e)
      · exact .ok ⟨hxy, trivial⟩
      · exact .error e
  rw [Store.update, Store.update]
  revert hwrites
  generalize s.write o table _ = x, s'.write o table _ = y
  rintro (hxy | e)
  · exact .ok hxy.1
  · exact .error e

end Edited

/-! ### Steps -/

/-- States whose tables are in a relation; sessions, locks and logs do not matter. -/
def Alike (E : Tables → Tables → Prop) (σ τ : State) : Prop := Edited E σ.store τ.store

instance : LogFree (Alike E) := ⟨fun _ _ h => h⟩

instance [Std.Symm E] : Std.Symm (Alike E) :=
  ⟨fun σ τ h => Std.Symm.symm (r := Edited E) σ.store τ.store h⟩

instance [IsTrans Tables E] : IsTrans State (Alike E) :=
  ⟨fun σ τ υ h h' => IsTrans.trans (r := Edited E) σ.store τ.store υ.store h h'⟩

/-- A step that gives the same result from alike states, and leads to alike states. -/
abbrev Respects (E : Tables → Tables → Prop) (x : ExceptT ε (StateM State) α) : Prop :=
  Parallel (fun _ => True) (Alike E) (Alike E) x x (· = ·)

namespace Respects

protected theorem pure (a : α) : Respects E (pure a : ExceptT ε (StateM State) α) := Parallel.pure rfl

protected theorem throw (e : ε) : Respects E (throw e : ExceptT ε (StateM State) α) :=
  Parallel.throw e

protected theorem bind {x : ExceptT ε (StateM State) α} {f : α → ExceptT ε (StateM State) β}
    (hx : Respects E x) (hf : ∀ a, Respects E (f a)) : Respects E (x >>= f) :=
  Parallel.bind hx (fun _ _ h => h) fun a _ hab => hab ▸ hf a

theorem reading {f : Tables → Except Store.Fault α} (h : ∀ t u, E t u → f t = f u) :
    Respects E (ExceptT.mk (Sync.reading (·.read o table f))) := by
  intro σ τ hJ _
  refine ⟨hJ, Edited.reads o table hJ fun t u hE => ?_⟩
  rw [h t u hE]
  cases f u with
  | error e => exact .error e
  | ok a => exact .ok rfl

theorem writing {f : Tables → Except Store.Fault (Tables × α)}
    (h : ∀ t u, E t u → Agree (fun a b => E a.1 b.1 ∧ a.2 = b.2) (f t) (f u)) :
    Respects E (ExceptT.mk (Sync.writing (·.write o table f))) := by
  intro σ τ hJ _
  have hwrites := Edited.writes o table hJ h
  change Alike E ((Sync.writing (·.write o table f)).run σ).2
      ((Sync.writing (·.write o table f)).run τ).2 ∧
    Agree _ ((Sync.writing (·.write o table f)).run σ).1
      ((Sync.writing (·.write o table f)).run τ).1
  rw [run_writing, run_writing]
  revert hwrites
  generalize σ.store.write o table f = x, τ.store.write o table f = y
  rintro (hxy | e)
  · exact ⟨hxy.1, .ok hxy.2⟩
  · exact ⟨hJ, .error e⟩

theorem updating {f : Tables → Except Store.Fault Tables}
    (h : ∀ t u, E t u → Agree E (f t) (f u)) :
    Respects E (ExceptT.mk (Sync.updating (·.update o table f))) := by
  intro σ τ hJ _
  have hupdates := Edited.updates o table hJ h
  change Alike E ((Sync.updating (·.update o table f)).run σ).2
      ((Sync.updating (·.update o table f)).run τ).2 ∧
    Agree _ ((Sync.updating (·.update o table f)).run σ).1
      ((Sync.updating (·.update o table f)).run τ).1
  rw [run_updating, run_updating]
  revert hupdates
  generalize σ.store.update o table f = x, τ.store.update o table f = y
  rintro (hxy | e)
  · exact ⟨hxy, .ok rfl⟩
  · exact ⟨hJ, .error e⟩

theorem logging (severity : Severity) (messages : List Text) :
    Respects E (liftM (Sync.logging severity messages) : ExceptT ε (StateM State) _) :=
  (Parallel.logging severity messages).post fun _ _ _ => rfl

theorem orFail {u : StateM State (Except ε α)} (failure : ε → Failure)
    (h : Respects E (ExceptT.mk u)) : Respects E (Sync.orFail failure u) :=
  Parallel.orFail failure h

theorem orWarn {u : StateM State (Except Store.Fault α)} (about : Text)
    (h : Respects E (ExceptT.mk u)) : Respects E (Sync.orWarn about u) := by
  refine (Parallel.orWarn about h).post fun a b hab => ?_
  cases hab with
  | none => rfl
  | some hab => exact congrArg some hab

theorem softly {x : Step α} (about : Text) (h : Respects E x) :
    Respects E (liftM (Sync.softly about x) : Step Unit) :=
  (Parallel.softly about h).post fun _ _ _ => rfl

end Respects

/-- Two steps that move the tables along the relation anyway leave alike states alike, whatever
becomes of them. -/
theorem Parallel.of_leads [Std.Symm E] [IsPreorder Tables E] {x : Step α} {y : Step β}
    {Q : α → State → Prop} {Q' : β → State → Prop} (about : Text)
    (hx : Leads (Edits E) (fun _ => True) x Q) (hy : Leads (Edits E) (fun _ => True) y Q') :
    Parallel (fun _ => True) (Alike E) (Alike E) (liftM (Sync.softly about x) : Step Unit)
      (liftM (Sync.softly about y) : Step Unit) (· = ·) := by
  intro σ τ hJ _
  have hσ : Alike E σ _ := (Leads.softly about hx σ trivial).1.store
  have hτ : Alike E τ _ := (Leads.softly about hy τ trivial).1.store
  exact ⟨IsTrans.trans _ _ _ (Std.Symm.symm _ _ hσ) (IsTrans.trans _ _ _ hJ hτ), .ok rfl⟩

/-! ### The steps of a sync -/

variable (id : Int)

theorem indexServices_respects (links : ServiceLinks) (ss : List Service) :
    Respects SameParts (indexServices id links ss) := by
  induction ss generalizing links with
  | nil => exact .pure links
  | cons s ss ih =>
    refine .bind (.orWarn _ (.writing fun _ _ h => h.putService id s)) fun id? => ?_
    split
    · exact ih _
    · exact ih links

theorem indexAttributes_respects (n : Int) (resource : Text) (as : List Attribute) :
    Respects SameParts (indexAttributes n resource as) := by
  induction as with
  | nil => exact .pure ()
  | cons a as ih =>
    exact .bind (.orWarn _ (.updating fun _ _ h => h.putAttribute n a)) fun _ => ih

theorem indexResource_respects (links : ServiceLinks) (r : Resource) :
    Respects SameParts (indexResource id links r) := by
  refine .bind (.orWarn _ (.writing fun _ _ h => h.putResource id r _)) fun id? => ?_
  cases id? with
  | none => exact .pure ()
  | some n =>
    refine .bind (indexAttributes_respects n r.name r.attributes) fun _ => ?_
    cases r.source with
    | none => exact .pure ()
    | some x => exact .bind (.orWarn _ (.updating fun _ _ h => h.putSource n x)) fun _ => .pure ()

theorem indexResources_respects (links : ServiceLinks) (rs : List Resource) :
    Respects SameParts (indexResources id links rs) := by
  induction rs with
  | nil => exact .pure ()
  | cons r rs ih => exact .bind (indexResource_respects id links r) fun _ => ih

/-- What the sources say depends on the stored files, and is stored in the tables that are shared. -/
theorem indexDefinitions_respects (resourcePrefix : Text) :
    Respects SameParts (indexDefinitions id resourcePrefix) := by
  refine .bind (.orFail _ (.reading fun _ _ h => h.filesOf id)) fun files => ?_
  split
  · exact .throw _
  · refine .bind (.logging _ _) fun _ => ?_
    split
    · exact .throw _
    · rename_i provider _ _ services _
      refine .bind (indexServices_respects id [] services) fun links =>
        .bind (.logging _ _) fun _ => ?_
      split
      · exact .throw _
      · exact .bind (indexResources_respects id links _) fun _ => .pure _

theorem storeFiles_respects (data : Bytes) : Respects SameParts (storeFiles id data) := by
  intro σ τ hJ _
  have hfile (f : RepositoryFile) (s s' : Store) (h : Edited SameParts s s') :
      Agree (Edited SameParts) (storeFile f s) (storeFile f s') := by
    have hinsert := h.updates .insertFile "repository_files" fun _ _ h => h.putFile f
    rw [storeFile, storeFile, Store.insertFile, Store.insertFile]
    revert hinsert
    generalize s.update _ _ _ = x, s'.update _ _ _ = y
    rintro (hxy | e)
    · exact .ok hxy
    · exact .error _
  have hwalks : (Archive.ingestBytes storeFile id data σ.store).Alike (Edited SameParts)
      (Archive.ingestBytes storeFile id data τ.store) :=
    Archive.ingestBytes_agree (fun f s s' h => hfile { f with repositoryId := id } s s' h) data hJ
  rw [run_storeFiles, run_storeFiles, hwalks.result]
  refine ⟨hwalks.stores, ?_⟩
  cases (Archive.ingestBytes storeFile id data τ.store).result with
  | error e => exact .error _
  | ok n => exact .ok rfl

theorem dropRecord_respects (s : Remote.Summary) : Respects SameParts (dropRecord s id) :=
  .bind (.orWarn _ (.updating fun _ _ h => h.deleteRepository id)) fun _ => .pure ()

end ProviderCatalog.Sync
