import ProviderCatalog.Proofs.Remote.Requests
import ProviderCatalog.Proofs.Sync.Effect

/-!
# Up to the archive

Before a sync asks for the archive of its repository it stores the record, which the remote side has
no part in, and asks for the readme text. If there is a token left then, the rest of the sync begins
with what comes back for the request for the archive.

## Main definitions

* `afterReadme`, `archiveReply`: the session after the question for the readme text, and what comes
  back for the request for the archive.
* `Fetches`: a sync gets to send that request, and gets a response.
* `afterArchive`, `withArchive`: the state after that request, and how the sync goes on.

## Main results

* `archiveReply_congr`: remote sides that reply alike to that request.
* `storeRecord_local`: storing the record looks at the store only.
* `run_afterRecord`: a sync after its record is stored.
* `Fetches.run_syncSteps`: a sync that gets a response to the request for the archive.
-/

namespace ProviderCatalog.Sync

open ProviderCatalog.Configuration (RepositorySource)
open Remote (Response Session)
open Store (Tables)

/-- The session after a sync has asked for the readme text. -/
def afterReadme (p : Plan) (remote : Remote) (s : Remote.Summary) (session : Session) : Session :=
  ((p.client.readme remote s.fullName).run.run session).2

/-- What comes back for the request for the archive if a sync sends it. -/
def archiveReply (p : Plan) (remote : Remote) (s : Remote.Summary) (session : Session) :
    Except Remote.Fault Response :=
  ((p.client.send remote (p.client.archiveUrl s.fullName)).run.run
    (afterReadme p remote s session)).1

/-- The sync of a repository gets to send the request for the archive, and gets a response: the
record can be stored, and there is a token left for the request. -/
structure Fetches (p : Plan) (remote : Remote) (s : Remote.Summary) (σ : State)
    (response : Response) : Prop where
  recorded : ∃ id, ((storeRecord s).run.run σ).1 = .ok id
  admitted : (afterReadme p remote s σ.session).admits = true
  reply : archiveReply p remote s σ.session = .ok response

/-- The state after a sync has stored the readme text and asked for the archive. -/
def afterArchive (p : Plan) (remote : Remote) (s : Remote.Summary) (σ : State) : State :=
  ((asking (p.client.archive remote (p.client.archiveUrl s.fullName))).run
    ((softly ("Failed to fetch README for " ++ s.name) (storeReadme p remote s)).run σ).2).2

/-- How a sync goes on once it knows about the archive. -/
def withArchive (p : Plan) (remote : Remote) (s : Remote.Summary) (r : RepositorySource)
    (id : Int) : Except Remote.Fault Bytes → Step Bool
  | .error (.unavailable _) => do
    dropRecord s id
    return false
  | .error f => throw (archiveFailure f)
  | .ok data => fillFrom p remote s r id data

variable (p : Plan) (remote : Remote) (s : Remote.Summary) (r : RepositorySource)

/-- What comes back for the request for the archive is the same if two remote sides reply alike to
it and to the requests that it is redirected to, whatever they reply to others. -/
theorem archiveReply_congr {remote remote' : Remote} {P : Remote.Request → Prop}
    (hsame : ∀ sent sent' q, P q → remote sent q = remote' sent' q)
    (hnext : ∀ sent q u v authorization authorization', P q →
      (remote sent q).next u authorization = .redirected v authorization' →
        P ⟨v.toText, authorization'⟩)
    (h : ∀ u, Remote.Url.read (p.client.archiveUrl s.fullName) = .ok u →
      P ⟨u.rooted.toText, p.client.authorization?⟩) (session : Session) :
    archiveReply p remote s session = archiveReply p remote' s session := by
  rw [archiveReply, archiveReply, Remote.Client.send_response, Remote.Client.send_response]
  cases hurl : Remote.Url.read (p.client.archiveUrl s.fullName) with
  | error f => rfl
  | ok u =>
    have hfetch (sent sent' : List Remote.Request) :
        (remote.fetch sent u.rooted p.client.authorization?).1 =
          (remote'.fetch sent' u.rooted p.client.authorization?).1 :=
      Remote.follow_congr hsame hnext Remote.maxRedirects sent sent' (h u hurl)
    dsimp only
    rw [hfetch]

/-- Storing the record looks at the store only, and changes the store and the log only. -/
theorem storeRecord_local (store : Store) : ∃ result store' lines, ∀ session locks log,
    (storeRecord s).run.run ⟨session, store, locks, log⟩ =
      (result, ⟨session, store', locks, log ++ lines⟩) := by
  simp only [storeRecord, run_bind, run_orFail, run_reading]
  cases store.repository? s.name with
  | error f => exact ⟨_, _, [], fun _ _ _ => by rw [List.append_nil]⟩
  | ok prior =>
    dsimp only
    simp only [run_writing]
    cases store.insertRepository (.ofSummary s none) with
    | error f => exact ⟨_, _, [], fun _ _ _ => by rw [List.append_nil]⟩
    | ok w =>
      dsimp only
      split
      · simp only [run_bind, run_orWarn, run_updating]
        cases w.1.clearRepository w.2 with
        | ok store' => exact ⟨_, _, [], fun _ _ _ => by rw [List.append_nil]; rfl⟩
        | error f =>
          dsimp only
          split
          · exact ⟨_, _, _, fun _ _ _ => rfl⟩
          · exact ⟨_, _, [], fun _ _ _ => by rw [List.append_nil]⟩
      · exact ⟨_, _, [], fun _ _ _ => by rw [List.append_nil]; rfl⟩

/-- The lock that a sync holds makes no difference to what it asks for. -/
theorem Fetches.holding {p : Plan} {remote : Remote} {s : Remote.Summary} {σ : State}
    {response : Response} (h : Fetches p remote s σ response) (locks : Locks) :
    Fetches p remote s { σ with locks } response := by
  refine ⟨?_, h.admitted, h.reply⟩
  obtain ⟨id, hid⟩ := h.recorded
  obtain ⟨result, store', lines, hrun⟩ := storeRecord_local s σ.store
  have hσ := hrun σ.session σ.locks σ.log
  refine ⟨id, ?_⟩
  rw [hrun σ.session locks σ.log]
  rw [hσ] at hid
  exact hid

/-- Storing the readme text asks no more than for that text. -/
theorem storeReadme_session (about : Text) (σ : State) :
    ((softly about (storeReadme p remote s)).run σ).2.session =
      afterReadme p remote s σ.session := by
  rw [run_softly, storeReadme, run_bind, run_orFail, run_asking, afterReadme]
  rcases (p.client.readme remote s.fullName).run.run σ.session with ⟨f | text, session⟩
  · rfl
  · dsimp only
    rw [run_bind, run_orFail, run_writing]
    dsimp only
    cases σ.store.insertRepository (.ofSummary s (some text)) <;> rfl

theorem afterRecord_eq (id : Int) (σ : State) : (afterRecord p remote s r id).run.run σ =
    (withArchive p remote s r id ((p.client.archive remote
      (p.client.archiveUrl s.fullName)).run.run (afterReadme p remote s σ.session)).1).run.run
        (afterArchive p remote s σ) := by
  rw [afterRecord, run_bind, run_lift]
  dsimp only
  rw [run_bind, run_lift, run_asking, storeReadme_session, afterArchive, run_asking,
    storeReadme_session]
  dsimp only
  generalize ((p.client.archive remote (p.client.archiveUrl s.fullName)).run.run
    (afterReadme p remote s σ.session)).1 = answer
  rcases answer with (_ | _) | _ <;> rfl

/-- With a token left, the rest of a sync depends on the remote side by what comes back for the
request for the archive. -/
theorem run_afterRecord (id : Int) {σ : State}
    (h : (afterReadme p remote s σ.session).admits = true) :
    (afterRecord p remote s r id).run.run σ =
      (withArchive p remote s r id
        ((archiveReply p remote s σ.session).bind Response.archive)).run.run
          (afterArchive p remote s σ) := by
  rw [afterRecord_eq, Remote.Client.archive_admitted p.client remote _ h, archiveReply]

/-- A sync that gets a response goes on with what is made of it. -/
theorem Fetches.run_syncSteps {p : Plan} {remote : Remote} {s : Remote.Summary} {σ : State}
    {response : Response} (h : Fetches p remote s σ response) (r : RepositorySource) :
    ∃ id τ, (storeRecord s).run.run σ = (.ok id, τ) ∧ (syncSteps p remote s r).run.run σ =
      (withArchive p remote s r id response.archive).run.run (afterArchive p remote s τ) := by
  obtain ⟨id, hid⟩ := h.recorded
  obtain ⟨result, store, lines, hlocal⟩ := storeRecord_local s σ.store
  have hrecord : (storeRecord s).run.run σ =
      (result, ⟨σ.session, store, σ.locks, σ.log ++ lines⟩) := hlocal σ.session σ.locks σ.log
  rw [hrecord] at hid
  cases hid
  refine ⟨id, _, hrecord, ?_⟩
  rw [syncSteps_eq, run_bind_ok hrecord,
    run_afterRecord (σ := ⟨σ.session, store, σ.locks, σ.log ++ lines⟩) p remote s r id h.admitted,
    h.reply]
  rfl

/-- Up to the archive, a sync does no more than store the readme text. -/
theorem afterArchive_store (σ : State) : (afterArchive p remote s σ).store =
    ((softly ("Failed to fetch README for " ++ s.name) (storeReadme p remote s)).run σ).2.store := by
  rw [afterArchive, run_asking]

end ProviderCatalog.Sync
