import ProviderCatalog.Proofs.Sync.Parallel

/-!
# Filling the tables of a host and of its guest

The steps that fill the tables do the same to a host as to its guest: they read the same files,
find the same services, resources and releases in them, and store them under numbers of the host
that stand for those of the guest.

## Main definitions

* `LinksStandFor`: links of directories to services of a host, and to those of its guest.

## Main results

* `storeFiles_parallel`, `indexDefinitions_parallel`, `captureReleases_parallel`: the three steps,
  side by side.
-/

namespace ProviderCatalog

open Store (Table Tables moveFile)

/-- The sources of files do not depend on the number of their repository. -/
theorem Schema.parseFiles_move (offset : Int) (fs : List RepositoryFile) :
    parseFiles (fs.map (moveFile offset)) = parseFiles fs := by
  induction fs with
  | nil => rfl
  | cons f fs ih =>
    rw [List.map_cons, parseFiles, parseFiles, ih]
    rfl

namespace Sync

open ProviderCatalog.Configuration (RepositorySource)
open Schema (Attribute Resource Service)
open Changelog (Entry Release ReleaseRecord)
open Store.Tables (CanHost Guest InRange)

variable {host : Tables} {offset : Int} {name : Text} {P : Tables → Prop}
  {H : Remote.Session → Remote.Session → Prop} {n : Int}

/-! ### Services -/

/-- Directories are linked to services of a host that stand for those that they are linked to in the
guest. -/
abbrev LinksStandFor (host : Tables) : ServiceLinks → ServiceLinks → Prop :=
  List.Forall₂ fun l l' => l.1 = l'.1 ∧ host.services.StandsFor l.2 l'.2

private theorem LinksStandFor.lookup {links links' : ServiceLinks}
    (h : LinksStandFor host links links') (directory : Text) :
    links.lookup directory = (links'.lookup directory).map (host.services.last + ·) ∧
      ∀ n ∈ links'.lookup directory, host.services.CanMove n := by
  induction h with
  | nil => exact ⟨rfl, nofun⟩
  | @cons l l' links links' hl _ ih =>
    obtain ⟨d, m⟩ := l
    obtain ⟨d', n⟩ := l'
    obtain ⟨hd, hm, hn⟩ := hl
    dsimp only at hd hm hn
    subst hd hm
    rw [List.lookup_cons, List.lookup_cons]
    split
    · refine ⟨rfl, fun k hk => ?_⟩
      cases hk
      exact hn
    · exact ih

private theorem insertService_parallel (h : host.CanHost offset) (s : Service) :
    Parallel InRange (Beside host offset name H) (Beside host offset name H)
      (ExceptT.mk (writing (·.insertService (offset + 1) s)))
      (ExceptT.mk (writing (·.insertService 1 s))) host.services.StandsFor := by
  refine .writing (m := (host.services.last + ·)) (fun t ht => h.putService ht.has s)
    fun t t' n ht hput => ⟨ht.putService hput, fun hrange => ⟨rfl, ?_⟩⟩
  have hsound := (ht.putService hput).valid.services
  have hlast := hrange.services
  obtain ⟨-, -, rfl, rfl⟩ := Tables.putService_ok hput
  exact Table.canMove_of_mem h.valid.services.counting hsound Table.put_mem hlast

theorem indexServices_parallel (h : host.CanHost offset) {links links' : ServiceLinks}
    (hlinks : LinksStandFor host links links') (ss : List Service) :
    Parallel InRange (Beside host offset name H) (Beside host offset name H)
      (indexServices (offset + 1) links ss) (indexServices 1 links' ss) (LinksStandFor host) := by
  induction ss generalizing links links' with
  | nil => exact .pure hlinks
  | cons s ss ih =>
    refine .bindGrowing (.orWarn _ (insertService_parallel h s)) (fun _ _ hJ => hJ) (fun id? => ?_)
      fun id? id?' hid => ?_
    · split <;> exact indexServices_grows _ _ ss
    · cases hid with
      | none => exact ih hlinks
      | some hid =>
        rcases s.directory with _ | _ | ⟨p, t⟩
        · exact ih hlinks
        · exact ih hlinks
        · exact ih (.cons ⟨rfl, hid⟩ hlinks)

/-! ### Resources -/

private theorem insertResource_parallel (h : host.CanHost offset) (r : Resource)
    {link : Option Int} (hlink : ∀ n ∈ link, host.services.CanMove n) :
    Parallel InRange (Beside host offset name H) (Beside host offset name H)
      (ExceptT.mk (writing
        (·.insertResource (offset + 1) r (link.map (host.services.last + ·)))))
      (ExceptT.mk (writing (·.insertResource 1 r link))) host.resources.StandsFor := by
  refine .writing (m := (host.resources.last + ·)) (fun t ht => h.putResource ht.has r hlink)
    fun t t' n ht hput => ⟨ht.putResource hput, fun hrange => ⟨rfl, ?_⟩⟩
  have hsound := (ht.putResource hput).valid.resources
  have hlast := hrange.resources
  obtain ⟨-, -, -, rfl, rfl⟩ := Tables.putResource_ok hput
  exact Table.canMove_of_mem h.valid.resources.counting hsound Table.put_mem hlast

private theorem indexAttributes_parallel (h : host.CanHost offset)
    (hn : host.resources.CanMove n) (resource : Text) (as : List Attribute) :
    Parallel P (Beside host offset name H) (Beside host offset name H)
      (indexAttributes (host.resources.last + n) resource as) (indexAttributes n resource as)
      fun _ _ => True := by
  induction as with
  | nil => exact .pure trivial
  | cons a as ih =>
    refine .bind (.orWarn _ (.updating (fun _ _ => ?_) fun _ _ ht => ht.putAttribute))
      (fun _ _ hJ => hJ) fun _ _ _ => ih
    exact h.putAttribute hn a

theorem indexResource_parallel (h : host.CanHost offset) {links links' : ServiceLinks}
    (hlinks : LinksStandFor host links links') (r : Resource) :
    Parallel InRange (Beside host offset name H) (Beside host offset name H)
      (indexResource (offset + 1) links r) (indexResource 1 links' r) fun _ _ => True := by
  obtain ⟨hlookup, hmove⟩ := hlinks.lookup (r.serviceDirectory.getD [])
  have hinsert : Parallel InRange (Beside host offset name H) (Beside host offset name H) _ _
      host.resources.StandsFor := insertResource_parallel h r hmove
  rw [← hlookup] at hinsert
  refine .bindGrowing (.orWarn _ hinsert) (fun _ _ hJ => hJ) (fun id? => ?_)
    fun id? id?' hid => ?_
  · cases id? with
    | none => exact .pure fun _ _ => trivial
    | some n => exact indexParts_grows n r
  · cases hid with
    | none => exact .pure trivial
    | some hid =>
      obtain ⟨rfl, hn⟩ := hid
      refine .bind (indexAttributes_parallel h hn r.name r.attributes) (fun _ _ hJ => hJ)
        fun _ _ _ => ?_
      cases r.source with
      | none => exact .pure trivial
      | some x =>
        exact .bind (.orWarn _ (.updating (fun _ _ => h.putSource hn x) fun _ _ ht => ht.putSource))
          (fun _ _ hJ => hJ) fun _ _ _ => .pure trivial

theorem indexResources_parallel (h : host.CanHost offset) {links links' : ServiceLinks}
    (hlinks : LinksStandFor host links links') (rs : List Resource) :
    Parallel InRange (Beside host offset name H) (Beside host offset name H)
      (indexResources (offset + 1) links rs) (indexResources 1 links' rs) fun _ _ => True := by
  induction rs with
  | nil => exact .pure trivial
  | cons r rs ih =>
    exact .bindGrowing (indexResource_parallel h hlinks r) (fun _ _ hJ => hJ)
      (fun _ => indexResources_grows _ links rs) fun _ _ _ => ih

/-- What the sources say is stored in a host as in its guest. -/
theorem indexDefinitions_parallel (h : host.CanHost offset) (resourcePrefix : Text) :
    Parallel InRange (Beside host offset name H) (Beside host offset name H)
      (indexDefinitions (offset + 1) resourcePrefix) (indexDefinitions 1 resourcePrefix)
      fun _ _ => True := by
  refine .bind (.orFail _ (.reading (m := List.map (moveFile offset)) fun t _ => h.filesOf))
    (fun _ _ hJ => hJ) fun _ files hfiles => ?_
  subst hfiles
  have hprovider : Schema.Provider.ofFiles resourcePrefix (files.map (moveFile offset)) =
      Schema.Provider.ofFiles resourcePrefix files := by
    rw [Schema.Provider.ofFiles, Schema.Provider.ofFiles, Schema.parseFiles_move]
  rw [hprovider]
  rcases Schema.Provider.ofFiles resourcePrefix files with e | ⟨provider, warnings⟩
  · exact .throw _
  · refine .bind (.logging _ _) (fun _ _ hJ => hJ) fun _ _ _ => ?_
    cases Schema.services provider.sources with
    | error e => exact .throw _
    | ok services =>
      refine .bindGrowing (indexServices_parallel h .nil services) (fun _ _ hJ => hJ)
        (fun links => ?_) fun links links' hlinks => ?_
      · rcases provider.extract with ⟨e | resources, warnings⟩
        · exact .bind (Grows.of_leads (.logging _ _)) fun _ => .throw _
        · exact .bind (Grows.of_leads (.logging _ _)) fun _ =>
            .bind (indexResources_grows _ links resources) fun _ => .pure fun _ _ => trivial
      · rcases provider.extract with ⟨e | resources, warnings⟩
        · exact .bind (.logging _ _) (fun _ _ hJ => hJ) fun _ _ _ => .throw _
        · refine .bind (.logging _ _) (fun _ _ hJ => hJ) fun _ _ _ => ?_
          exact .bindGrowing (indexResources_parallel h hlinks resources) (fun _ _ hJ => hJ)
            (fun _ => .pure fun _ _ => trivial) fun _ _ _ => .pure trivial

/-! ### Files -/

private theorem storeFile_agree (h : host.CanHost offset) (f : RepositoryFile) {s s' : Store}
    (hstores : Hosts host offset name s s') :
    Agree (Hosts host offset name) (storeFile { f with repositoryId := offset + 1 } s)
      (storeFile { f with repositoryId := 1 } s') := by
  obtain ⟨t, ht, rfl, rfl⟩ := hstores
  have hput := h.putFile ht.valid ht.has (f := { f with repositoryId := 1 }) rfl
  unfold storeFile Store.insertFile
  rw [Store.update_inOrder rfl rfl, Store.update_inOrder rfl rfl]
  change Agree _ (((((host.hosting offset t).putFile (moveFile offset
    { f with repositoryId := 1 }))).map _).mapError _) _
  rw [hput]
  cases hguest : t.putFile { f with repositoryId := 1 } with
  | error e => exact .error _
  | ok u => exact .ok ⟨u, ht.putFile hguest, rfl, rfl⟩

/-- The files of an archive are stored in a host as in its guest. -/
theorem storeFiles_parallel (h : host.CanHost offset) (data : Bytes) :
    Parallel P (Beside host offset name H) (Beside host offset name H)
      (storeFiles (offset + 1) data) (storeFiles 1 data) fun _ _ => True := by
  rintro σ τ ⟨hsessions, hstores⟩ -
  have halike := Archive.ingestBytes_agree (J := Hosts host offset name)
    (fun f _ _ => storeFile_agree h f) data hstores
  rw [run_storeFiles, run_storeFiles, halike.result]
  refine ⟨⟨hsessions, halike.stores⟩, ?_⟩
  cases (Archive.ingestBytes storeFile 1 data τ.store).result with
  | error e => exact .error _
  | ok n => exact .ok trivial

/-! ### Releases -/

private theorem insertRelease_parallel (h : host.CanHost offset) (r : ReleaseRecord) :
    Parallel InRange (Beside host offset name H) (Beside host offset name H)
      (ExceptT.mk (writing (·.insertRelease (offset + 1) r)))
      (ExceptT.mk (writing (·.insertRelease 1 r))) host.releases.StandsFor := by
  refine .writing (m := (host.releases.last + ·)) (fun t ht => h.putRelease ht.has r)
    fun t t' n ht hput => ⟨ht.putRelease hput, fun hrange => ⟨rfl, ?_⟩⟩
  have hsound := (ht.putRelease hput).valid.releases
  have hlast := hrange.releases
  obtain ⟨-, -, rfl, rfl⟩ := Tables.putRelease_ok hput
  exact Table.canMove_of_mem h.valid.releases.counting hsound Table.put_mem hlast

private theorem storeRelease_parallel (h : host.CanHost offset) (resourcePrefix : Text)
    (r : Release) (record : ReleaseRecord) :
    Parallel InRange (Beside host offset name H) (Beside host offset name H)
      (storeRelease (offset + 1) resourcePrefix r record) (storeRelease 1 resourcePrefix r record)
      fun _ _ => True := by
  refine .bindGrowing (.orFail _ (insertRelease_parallel h record)) (fun _ _ hJ => hJ)
    (fun n => ?_) fun _ n hn => ?_
  · cases Changelog.entries resourcePrefix r with
    | error e => exact .throw _
    | ok es => exact replaceEntries_grows _ n es
  · obtain ⟨rfl, hn⟩ := hn
    cases Changelog.entries resourcePrefix r with
    | error e => exact .throw _
    | ok es =>
      exact .orFail _ (.updating (fun _ _ => h.replaceEntries hn es) fun _ _ ht =>
        ht.replaceEntries)

private theorem storeReleases_parallel (h : host.CanHost offset) (resourcePrefix : Text)
    (releases : List (Release × ReleaseRecord)) :
    Parallel InRange (Beside host offset name H) (Beside host offset name H)
      (storeReleases (offset + 1) resourcePrefix releases) (storeReleases 1 resourcePrefix releases)
      fun _ _ => True := by
  induction releases with
  | nil => exact .pure trivial
  | cons r releases ih =>
    exact .bindGrowing (storeRelease_parallel h resourcePrefix r.1 r.2) (fun _ _ hJ => hJ)
      (fun _ => storeReleases_grows _ _ releases) fun _ _ _ => ih

/-- The tags that remote sides list are the same if their answers are. -/
private theorem listTags_parallel (p : Plan) (remote remote' : Remote) (fullName : Text)
    (htags : ∀ s s', H s s' → ((p.client.tags remote fullName p.tagPages).run.run s).1 =
      ((p.client.tags remote' fullName p.tagPages).run.run s').1) :
    Parallel P (Beside host offset name H) (Beside host offset name fun _ _ => True)
      (listTags p remote fullName) (listTags p remote' fullName)
      fun tags tags' => tags = tags' := by
  refine .bind (.answered htags) (fun _ _ hJ => hJ) fun answer _ hanswer => ?_
  subst hanswer
  cases answer with
  | ok tags => exact .pure rfl
  | error f =>
    dsimp only
    split
    · exact .bind (.logging _ _) (fun _ _ hJ => hJ) fun _ _ _ => .pure rfl
    · exact .throw _

/-- The releases are stored in a host as in its guest, if the answers about tags are the same. -/
theorem captureReleases_parallel (h : host.CanHost offset)
    (hnumbered : host.Numbered name (offset + 1)) (p : Plan) (remote remote' : Remote)
    {s : Remote.Summary} (hname : s.name = name) (resourcePrefix : Text)
    (htags : ∀ x x', H x x' → ((p.client.tags remote s.fullName p.tagPages).run.run x).1 =
      ((p.client.tags remote' s.fullName p.tagPages).run.run x').1) :
    Parallel InRange (Beside host offset name H) (Beside host offset name fun _ _ => True)
      (captureReleases p remote (offset + 1) s resourcePrefix)
      (captureReleases p remote' 1 s resourcePrefix) fun _ _ => True := by
  have hforget (σ τ : State) (hJ : Beside host offset name H σ τ) :
      Beside host offset name (fun _ _ => True) σ τ := ⟨trivial, hJ.stores⟩
  refine .bind (.orFail _ (.reading (m := Option.map (moveFile offset)) fun t ht => ?_)) hforget
    fun _ changelog? hchangelog => ?_
  · rw [hname]
    exact h.file? hnumbered ht.numbered p.changelogPath
  · subst hchangelog
    cases changelog? with
    | none => exact .pre (.throw _) hforget
    | some changelog =>
      dsimp only [Option.map, moveFile]
      generalize Changelog.read p.releaseLimit changelog.content = releases
      split
      · exact .pre (.bind (.throw (Q := fun _ _ => False) _) (fun _ _ hJ => hJ)
          fun _ _ hfalse => hfalse.elim) hforget
      · refine .bind (listTags_parallel p remote remote' s.fullName htags) (fun _ _ hJ => hJ)
          fun tags _ htags => ?_
        subst htags
        exact .bindGrowing (storeReleases_parallel h resourcePrefix _) (fun _ _ hJ => hJ)
          (fun _ => .pure fun _ _ => trivial) fun _ _ _ => .pure trivial

/-! ### All of them -/

/-- What a sync does once its archive is there, it does to a host as to its guest. -/
theorem fillFrom_parallel (h : host.CanHost offset) (p : Plan) (remote remote' : Remote)
    {s : Remote.Summary} (hnumbered : host.Numbered s.name (offset + 1)) (r : RepositorySource)
    (data : Bytes)
    (htags : ∀ x x', H x x' → ((p.client.tags remote s.fullName p.tagPages).run.run x).1 =
      ((p.client.tags remote' s.fullName p.tagPages).run.run x').1) :
    Parallel InRange (Beside host offset s.name H) (Beside host offset s.name fun _ _ => True)
      (fillFrom p remote s r (offset + 1) data) (fillFrom p remote' s r 1 data)
      fun available available' => available = available' := by
  have hforget (σ τ : State) (hJ : Beside host offset s.name H σ τ) :
      Beside host offset s.name (fun _ _ => True) σ τ := ⟨trivial, hJ.stores⟩
  have hcapture := captureReleases_parallel h hnumbered p remote remote' rfl (p.prefixFor r) htags
  refine .bind (storeFiles_parallel h data) hforget fun _ _ _ => ?_
  refine .bindGrowing (.softly _ (indexDefinitions_parallel h (p.prefixFor r))) hforget
    (fun _ => ?_) fun _ _ _ => ?_
  · exact .bind (.softly _ (Grows.of_fills (captureReleases_fills p remote s _).anywhere)) fun _ =>
      .pure fun _ _ => trivial
  · exact .bindGrowing (.softly _ hcapture) (fun _ _ hJ => hJ) (fun _ => .pure fun _ _ => trivial)
      fun _ _ _ => .pure rfl

end Sync

end ProviderCatalog
