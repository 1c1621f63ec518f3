import ProviderCatalog.Archive.Ingest
import ProviderCatalog.Remote.Client
import ProviderCatalog.Schema.Extraction
import ProviderCatalog.Store.Basic
import ProviderCatalog.Sync.Locks

/-!
# Steps of a sync

A step of a sync asks the remote side, reads from and writes to the store, and writes to the log. It
may fail; what it did before stays done.

## Main definitions

* `LogLine`, `LogLine.toText`: a line of the log with its severity.
* `State`: what steps work on.
* `Failure`, `Failure.message`: why a step fails.
* `asking`, `reading`, `writing`, `warn`: the elementary actions.
* `Step`, `orFail`, `orWarn`, `softly`: steps, and what becomes of their faults.
-/

namespace ProviderCatalog

namespace Sync

/-- How serious a line of the log is. -/
inductive Severity where
  | warning
  | error
deriving DecidableEq, Repr

/-- A line of the log. -/
structure LogLine where
  severity : Severity
  message : Text
deriving DecidableEq, Repr

/-- The name of a severity. -/
def Severity.toText : Severity → Text
  | warning => "WARNING"
  | error => "ERROR"

/-- A line as it is shown. -/
def LogLine.toText (l : LogLine) : Text := l.severity.toText ++ ": " ++ l.message

/-- What the steps of a sync work on. -/
structure State where
  session : Remote.Session
  store : Store
  locks : Locks
  /-- The lines of the log, in order. -/
  log : List LogLine

/-- Why a step of a sync fails. -/
inductive Failure where
  | remote (f : Remote.Fault)
  | store (f : Store.Fault)
  | archive (f : Archive.Failure)
  | extraction (f : Schema.ExtractionFailure)
  | invalid (e : Invalid)
  /-- The record of the repository cannot be stored. -/
  | notStored (f : Store.Fault)
  /-- The archive cannot be fetched. -/
  | notFetched (f : Remote.Fault)
  | noChangelog (path : Text)
  | noReleases (path : Text)
  /-- A release cannot be stored. -/
  | releaseNotStored (version : Text) (f : Store.Fault)

/-- The message of a failure. -/
def Failure.message : Failure → Text
  | remote f => f.message
  | store f => f.message
  | archive f => f.message
  | extraction f => f.message
  | invalid e => e.message
  | notStored f => ("failed to insert repository: " : Text) ++ f.message
  | notFetched f => ("failed to sync files: " : Text) ++ f.message
  | noChangelog path => path ++ " not found"
  | noReleases path => ("no releases parsed from " : Text) ++ path
  | releaseNotStored version f =>
    ("failed to persist release " : Text) ++ version ++ ": " ++ f.message

variable {α β ε : Type}

/-- Makes a call to the remote side. -/
def asking (c : Remote.Call α) : StateM State (Except Remote.Fault α) := fun s =>
  let (result, session) := c.run.run s.session
  (result, { s with session })

/-- Reads from the store. -/
def reading (f : Store → Except Store.Fault α) : StateM State (Except Store.Fault α) := fun s =>
  (f s.store, s)

/-- Writes to the store, which stays as it was if the write fails. -/
def writing (f : Store → Except Store.Fault (Store × α)) : StateM State (Except Store.Fault α) :=
  fun s =>
    match f s.store with
    | .ok (store, a) => (.ok a, { s with store })
    | .error e => (.error e, s)

/-- Writes to the store without an answer. -/
def updating (f : Store → Except Store.Fault Store) : StateM State (Except Store.Fault Unit) :=
  writing fun s => return ((← f s), ())

/-- Adds lines to the log. -/
def logging (severity : Severity) (messages : List Text) : StateM State Unit :=
  modify fun s => { s with log := s.log ++ messages.map (⟨severity, ·⟩) }

/-- Adds a warning to the log. -/
def warn (message : Text) : StateM State Unit := logging .warning [message]

/-- A step, which may fail. -/
abbrev Step := ExceptT Failure (StateM State)

/-- The step that fails when an action does. -/
def orFail (failure : ε → Failure) (x : StateM State (Except ε α)) : Step α := do
  match ← (x : StateM State (Except ε α)) with
  | .ok a => return a
  | .error e => throw (failure e)

/-- The step that passes over a refused write with a warning; any other fault fails it. -/
def orWarn (about : Text) (x : StateM State (Except Store.Fault α)) : Step (Option α) := do
  match ← (x : StateM State (Except Store.Fault α)) with
  | .ok a => return some a
  | .error f =>
    if f.isRefusal then
      (warn (about ++ ": " ++ f.message) : StateM State Unit)
      return none
    else throw (.store f)

/-- Takes a step whose failure is no more than a warning. -/
def softly (about : Text) (x : Step α) : StateM State Unit := do
  match ← x.run with
  | .ok _ => return ()
  | .error f => warn (about ++ ": " ++ f.message)

end Sync

end ProviderCatalog
