import ProviderCatalog.Proofs.Sync.Alike
import ProviderCatalog.Proofs.Sync.Fetching
import ProviderCatalog.Proofs.Sync.Resync

/-!
# The readme text and the tags are extras

A sync asks the remote side for a readme text, for the archive and for tags. Its result depends on
the answer about the archive only, and so do the files, services, resources, attributes and sources
that it leaves: whatever the remote side answers about the readme text and the tags, and however the
steps end that want to know, they are passed over with a warning and disturb nothing that a later
step reads. A sync that gets an archive which can be read succeeds.

## Main results

* `admits_afterReadme`: with three tokens, the request for the archive is admitted.
* `fillFrom_alike`, `withArchive_alike`: what a sync does with the answer about the archive.
* `syncRepository_soft`: syncs over one store that get the same answer about the archive.
-/

namespace ProviderCatalog.Sync

open ProviderCatalog.Configuration (RepositorySource)
open Remote (Response Session)
open Store (Tables)
open Store.Tables (SameParts)

variable {p : Plan} {remote remote' : Remote} {s : Remote.Summary} {r : RepositorySource}
  {σ τ : State} {id : Int}

/-! ### Up to the archive -/

/-- The readme text takes two tokens at most, so a third one is left for the archive. -/
theorem admits_afterReadme {session : Session} (h : 3 ≤ session.left) :
    (afterReadme p remote s session).admits = true := by
  have hcosts : session.left - 2 ≤ (afterReadme p remote s session).left :=
    (p.client.readme_costs remote s.fullName session).2
  exact Session.admits_of_left (by omega)

/-- Storing a readme text makes no difference to the parts of the tables. -/
theorem afterArchive_alike (hnumbered : On (fun t => t.Numbered s.name id) σ) :
    Alike SameParts σ (afterArchive p remote s σ) := by
  have hreadme : Leads (Edits SameParts) (On fun t => t.Numbered s.name id)
      (storeReadme p remote s) fun _ _ => True :=
    storeReadme_leads p remote fun _ _ _ hnumbered hput => hnumbered.sameParts_putRepository hput
  have hE := (Leads.softly ("Failed to fetch README for " ++ s.name) hreadme σ hnumbered).1.store
  rw [run_lift] at hE
  rw [Alike, afterArchive_store]
  exact hE

/-! ### With the archive -/

/-- The releases make no difference to the parts of the tables, wherever storing them fails. -/
private theorem captureReleases_shares (p : Plan) (remote : Remote) (s : Remote.Summary) (id : Int)
    (resourcePrefix : Text) :
    Leads (Edits SameParts) (fun _ => True) (captureReleases p remote id s resourcePrefix)
      fun _ _ => True :=
  (captureReleases_leads p remote s (storeReleases_leads
    (fun _ _ _ _ => Tables.sameParts_putRelease)
    fun _ _ _ _ => Tables.sameParts_replaceEntries)).anywhere

/-- What a sync does with an archive depends on the remote side in its releases only. -/
theorem fillFrom_alike (p : Plan) (remote remote' : Remote) (s : Remote.Summary)
    (r : RepositorySource) (id : Int) (data : Bytes) :
    Parallel (fun _ => True) (Alike SameParts) (Alike SameParts) (fillFrom p remote s r id data)
      (fillFrom p remote' s r id data) (· = ·) := by
  refine .bind (storeFiles_respects id data) (fun _ _ h => h) fun _ _ _ => ?_
  refine .bind (.softly _ (indexDefinitions_respects id _)) (fun _ _ h => h) fun _ _ _ => ?_
  refine .bind (.of_leads _ (captureReleases_shares p remote s id _)
    (captureReleases_shares p remote' s id _)) (fun _ _ h => h) fun _ _ _ => .pure rfl

/-- How a sync goes on depends on the answer about the archive. -/
theorem withArchive_alike (p : Plan) (remote remote' : Remote) (s : Remote.Summary)
    (r : RepositorySource) (id : Int) (answer : Except Remote.Fault Bytes) :
    Parallel (fun _ => True) (Alike SameParts) (Alike SameParts)
      (withArchive p remote s r id answer) (withArchive p remote' s r id answer) (· = ·) := by
  rcases answer with f | data
  · cases f with
    | unavailable status =>
      exact .bind (dropRecord_respects id s) (fun _ _ h => h) fun _ _ _ => .pure rfl
    | _ => exact .throw _
  · exact fillFrom_alike p remote remote' s r id data

/-- A sync with an archive that can be read succeeds, whatever becomes of the sources and the
releases. -/
private theorem fillFrom_succeeds (p : Plan) (remote : Remote) (s : Remote.Summary)
    (r : RepositorySource) (id : Int) {data : Bytes} (h : Archive.isReadable data = true)
    (σ : State) : ((fillFrom p remote s r id data).run.run σ).1 = .ok true := by
  have hisOk := (Archive.ingestBytes_isOk storeFile id data σ.store).trans h
  rw [fillFrom, run_bind, run_storeFiles]
  generalize Archive.ingestBytes storeFile id data σ.store = outcome at hisOk
  cases hresult : outcome.result with
  | error f =>
    rw [hresult] at hisOk
    cases hisOk
  | ok n => rfl

/-! ### The whole sync -/

/-- The steps of syncs that get the same answer about the archive end in the same way. -/
private theorem syncSteps_alike (htokens : 3 ≤ σ.session.left)
    (hreply : archiveReply p remote s σ.session = archiveReply p remote' s σ.session) :
    Alike SameParts ((syncSteps p remote s r).run.run σ).2
        ((syncSteps p remote' s r).run.run σ).2 ∧
      Agree (· = ·) ((syncSteps p remote s r).run.run σ).1
        ((syncSteps p remote' s r).run.run σ).1 := by
  obtain ⟨result, store, lines, hlocal⟩ := storeRecord_local s σ.store
  have hrecord : (storeRecord s).run.run σ =
      (result, ⟨σ.session, store, σ.locks, σ.log ++ lines⟩) := hlocal σ.session σ.locks σ.log
  rw [syncSteps_eq, syncSteps_eq]
  cases result with
  | error f =>
    rw [run_bind_error hrecord, run_bind_error hrecord]
    exact ⟨Std.Refl.refl (r := Edited SameParts) store, .error f⟩
  | ok id =>
    have hnumbered := storeRecord_numbered hrecord
    rw [run_bind_ok hrecord, run_bind_ok hrecord]
    generalize hσ : (⟨σ.session, store, σ.locks, σ.log ++ lines⟩ : State) = υ at hnumbered
    have hsession : υ.session = σ.session := by rw [← hσ]
    rw [← hsession] at htokens hreply
    rw [run_afterRecord p remote s r id (admits_afterReadme htokens),
      run_afterRecord p remote' s r id (admits_afterReadme htokens), ← hreply]
    -- both have stored what they took for the readme text, which the rest does not see
    have hbefore : Alike SameParts (afterArchive p remote s υ) (afterArchive p remote' s υ) :=
      IsTrans.trans _ _ _ (Std.Symm.symm _ _ (afterArchive_alike hnumbered))
        (afterArchive_alike hnumbered)
    exact withArchive_alike p remote remote' s r id _ _ _ hbefore fun _ _ => trivial

/-- Syncs of a repository over one store tell the same result, and leave the same files, services,
resources, attributes and sources, if the same comes back for the request for the archive, whatever
the remote sides answer about the readme text and the tags; three tokens must be left. If the sync
gets a response with an archive that can be read, the result is a success. -/
theorem syncRepository_soft (p : Plan) (remote remote' : Remote) (s : Remote.Summary)
    (r : RepositorySource) {σ : State} (hfree : σ.locks.isHeld s.fullName = false)
    (htokens : 3 ≤ σ.session.left)
    (hreply : archiveReply p remote s σ.session = archiveReply p remote' s σ.session) :
    let run := (syncRepository p remote s r).run σ
    let run' := (syncRepository p remote' s r).run σ
    run'.1 = run.1 ∧ Edited SameParts run.2.store run'.2.store ∧
      ∀ response, Fetches p remote s σ response → response.status = 200 →
        Archive.isReadable response.body = true → run.1 = ⟨s.name, true, none, false⟩ := by
  intro run run'
  have hrun : run = _ := syncRepository_free p remote r hfree
  have hrun' : run' = _ := syncRepository_free p remote' r hfree
  obtain ⟨halike, hagree⟩ := syncSteps_alike (r := r)
    (σ := { σ with locks := ⟨s.fullName :: σ.locks.held⟩ }) htokens hreply
  refine ⟨?_, ?_, fun response hfetches hstatus hreadable => ?_⟩
  · rw [hrun, hrun']
    dsimp only
    revert hagree
    generalize ((syncSteps p remote s r).run.run _).1 = a,
      ((syncSteps p remote' s r).run.run _).1 = b
    rintro (hab | e)
    · rw [hab]
    · rfl
  · rw [hrun, hrun']
    exact halike
  · obtain ⟨id, τ, -, hsteps⟩ :=
      (hfetches.holding ⟨s.fullName :: σ.locks.held⟩).run_syncSteps r
    rw [hrun]
    dsimp only
    rw [hsteps, Response.archive_ok hstatus, withArchive,
      fillFrom_succeeds p remote s r id hreadable]
    rfl

/-! ### Remote sides with one archive -/

/-- An archive with a changelog of one release. -/
def archiveOfChangelog : Bytes :=
  [31, 139, 8, 0, 0, 0, 0, 0, 0, 0, 43, 210, 119, 246, 112, 244, 115, 119, 245, 241, 119, 215,
    203, 77, 97, 160, 9, 48, 128, 0, 92, 180, 129, 129, 161, 41, 130, 13, 22, 55, 55, 55, 55,
    101, 80, 48, 96, 160, 3, 40, 45, 46, 73, 44, 2, 90, 201, 48, 50, 129, 178, 178, 130, 161,
    158, 129, 158, 1, 151, 150, 66, 34, 23, 195, 40, 24, 5, 163, 96, 20, 140, 130, 145, 2, 0,
    241, 77, 176, 146, 0, 8, 0, 0]

/-- Whether a request is for an archive. -/
def isForArchive (q : Remote.Request) : Bool := Text.endsWith q.url "/tarball"

/-- A remote side with an archive, and with the same reply to every other request. -/
def answering (other : Remote.Reply) (data : Bytes) : Remote := fun _ q =>
  if isForArchive q then .response ⟨200, none, data⟩ else other

/-- There is a readme file, and it stands where tags are asked for as well. -/
def reachable : Remote := answering (.response ⟨200, none, shortReadme⟩) archiveOfChangelog

/-- Nothing but the archive can be asked for. -/
def unreachable : Remote := answering (.fault ⟨"ConnectError", []⟩) archiveOfChangelog

/-- Whatever is replied to other requests, the request for the archive gets the same response. -/
private theorem archiveReply_answering (other other' : Remote.Reply) (data : Bytes)
    (session : Session) :
    archiveReply idlePlan (answering other data) (ownedSummary "a" "x") session =
      archiveReply idlePlan (answering other' data) (ownedSummary "a" "x") session := by
  have hreply (other : Remote.Reply) (sent : List Remote.Request) (q : Remote.Request)
      (hq : isForArchive q = true) : answering other data sent q = .response ⟨200, none, data⟩ :=
    if_pos hq
  have hurl : (Remote.Url.read (idlePlan.client.archiveUrl
      (ownedSummary "a" "x").fullName)).toOption.all
        (fun u => isForArchive ⟨u.rooted.toText, idlePlan.client.authorization?⟩) = true := by
    decide +kernel
  refine archiveReply_congr (P := fun q => isForArchive q = true) _ _ (fun sent sent' q hq => ?_)
    (fun sent q u v _ _ hq hnext => ?_) (fun u hu => ?_) session
  · rw [hreply other sent q hq, hreply other' sent' q hq]
  · rw [hreply other sent q hq] at hnext
    exact nomatch hnext
  · rw [hu] at hurl
    exact hurl

set_option maxRecDepth 100000 in
private theorem reachable_fetches :
    Fetches idlePlan reachable (ownedSummary "a" "x") (openState .ready)
      ⟨200, none, archiveOfChangelog⟩ := by
  refine ⟨⟨1, eq_ok_of_toOption ?_⟩, ?_, ?_⟩ <;> decide +kernel

/-- The readme text of the repository, and the number of its releases. -/
def extras (store : Store) : Option Text × Option Nat :=
  ((held store).2, (store.releases 1).toOption.map List.length)

set_option maxRecDepth 100000 in
/-- One of two syncs stores a readme text and a release, the other neither; their results and their
files are the same. -/
theorem syncRepository_soft_of_x :
    let run := (syncRepository idlePlan reachable (ownedSummary "a" "x")
      ⟨"a/x", none, true⟩).run (openState .ready)
    let run' := (syncRepository idlePlan unreachable (ownedSummary "a" "x")
      ⟨"a/x", none, true⟩).run (openState .ready)
    extras run.2.store = (some ("hi" : Text), some 1) ∧ extras run'.2.store = (none, some 0) ∧
      run.1 = ⟨"x", true, none, false⟩ ∧ run'.1 = run.1 ∧
      Edited SameParts run.2.store run'.2.store := by
  intro run run'
  have hextras : extras run.2.store = (some ("hi" : Text), some 1) ∧
      extras run'.2.store = (none, some 0) := by decide +kernel
  obtain ⟨hresult, hstores, hsuccess⟩ := syncRepository_soft idlePlan reachable unreachable
    (ownedSummary "a" "x") ⟨"a/x", none, true⟩ (σ := openState .ready) rfl (by decide +kernel)
    (archiveReply_answering _ _ _ _)
  exact ⟨hextras.1, hextras.2, hsuccess _ reachable_fetches rfl (by decide +kernel), hresult,
    hstores⟩

end ProviderCatalog.Sync
