import ProviderCatalog.Sync.Definitions
import ProviderCatalog.Sync.Progress
import ProviderCatalog.Sync.Releases

/-!
# Syncing one repository

The record is stored first, and what an earlier sync stored about the repository is cleared. Then
come the readme text, the files of the archive, what the sources say, and the releases. Only the
record and the files have to succeed; a repository without an archive loses its record again. The
lock of the repository is held meanwhile.

## Main definitions

* `storeRecord`, `storeReadme`, `storeFiles`: the first three steps.
* `syncSteps`: all steps; tells whether there was an archive.
* `syncRepository`: the sync of a repository under its lock.
-/

namespace ProviderCatalog.Sync

open ProviderCatalog.Configuration (RepositorySource)

/-- Stores the record of a repository, cleared of what an earlier sync left, and tells its
number. -/
def storeRecord (s : Remote.Summary) : Step Int := do
  let prior ← orFail .store (reading (·.repository? s.name))
  let id ← orFail (fun f => if f.isRefusal then .notStored f else .store f)
    (writing (·.insertRepository (.ofSummary s none)))
  if prior.isSome then
    let _ ← orWarn ("Failed to clear old data for " ++ s.name) (updating (·.clearRepository id))
  return id

/-- Stores the readme text of a repository. -/
def storeReadme (p : Plan) (remote : Remote) (s : Remote.Summary) : Step Unit := do
  let readme ← orFail .remote (asking (p.client.readme remote s.fullName))
  let _ ← orFail .store (writing (·.insertRepository (.ofSummary s (some readme))))

/-- Removes the record of a repository without an archive. -/
def dropRecord (s : Remote.Summary) (id : Int) : Step Unit := do
  let _ ← orWarn ("Failed to delete repository record for " ++ s.name)
    (updating (·.deleteRepository id))

/-- Stores a file of an archive; a fault is told by its message. -/
def storeFile (f : RepositoryFile) (s : Store) : Except Text Store :=
  (s.insertFile f).mapError Store.Fault.message

/-- Stores the files of an archive. -/
def storeFiles (id : Int) (data : Bytes) : Step Unit := do
  let outcome := Archive.ingestBytes storeFile id data (← get).store
  modify fun s => { s with store := outcome.store }
  (logging .warning outcome.warnings : StateM State Unit)
  match outcome.result with
  | .ok _ => return ()
  | .error f => throw (.archive f)

/-- What an archive that cannot be fetched fails with. -/
def archiveFailure (f : Remote.Fault) : Failure :=
  if f.isAnswer then .notFetched f else .remote f

/-- Syncs a repository; tells whether there was an archive. -/
def syncSteps (p : Plan) (remote : Remote) (s : Remote.Summary) (r : RepositorySource) :
    Step Bool := do
  let id ← storeRecord s
  (softly ("Failed to fetch README for " ++ s.name) (storeReadme p remote s) : StateM State Unit)
  match ← (asking (p.client.archive remote (p.client.archiveUrl s.fullName)) : StateM State _) with
  | .error (.unavailable _) =>
    dropRecord s id
    return false
  | .error f => throw (archiveFailure f)
  | .ok data =>
    storeFiles id data
    (softly ("Failed to parse provider resources for " ++ s.name)
      (indexDefinitions id (p.prefixFor r)) : StateM State Unit)
    (softly ("Failed to ingest release metadata for " ++ s.name)
      (captureReleases p remote id s (p.prefixFor r)) : StateM State Unit)
    return true

/-- The result of a sync that failed, which is told to the log as well. -/
def failedResult (s : Remote.Summary) (reason : Text) : StateM State RepositoryResult := do
  let message := ("Failed to sync " : Text) ++ s.name ++ ": " ++ reason
  logging .error [message]
  return ⟨s.name, false, some message, false⟩

/-- Syncs a repository under its lock. -/
def syncRepository (p : Plan) (remote : Remote) (s : Remote.Summary) (r : RepositorySource) :
    StateM State RepositoryResult := do
  match (← get).locks.acquire? s.fullName with
  | none => failedResult s "sync already in progress"
  | some locks =>
    modify fun x => { x with locks }
    let result ← match ← (syncSteps p remote s r).run with
      | .ok available => pure ⟨s.name, true, none, !available⟩
      | .error f => failedResult s f.message
    modify fun x => { x with locks := x.locks.release s.fullName }
    return result

end ProviderCatalog.Sync
