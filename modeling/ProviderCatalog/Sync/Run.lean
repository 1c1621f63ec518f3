import ProviderCatalog.Sync.Repository

/-!
# Syncing all repositories

A run looks up every repository first and fails, before anything is stored, if one of them cannot be
looked up or is not to be synced: private, archived and empty repositories are not. A full run then
syncs all of them. An updating run syncs those whose time of the last update is not the stored one;
it looks them up afresh, not in the cache.

The runs are those of one worker, which brings one sync to its end before it begins the next.
`Plan.workersFor` tells how many syncs may overlap; runs in which they do are not described here.

## Main definitions

* `Ineligibility`, `ineligibility?`: why a repository is not synced.
* `Mode`: the two kinds of runs.
* `RunFailure`: why a run fails as a whole.
* `lookUp`: the summaries of all repositories.
* `selectOutdated`: the repositories that an updating run syncs.
* `syncAll`, `Plan.run`: the syncs one after the other, and a whole run.
-/

namespace ProviderCatalog.Sync

open ProviderCatalog.Configuration (RepositorySource)

/-! ### Repositories that are not synced -/

/-- Why a repository is not synced. -/
inductive Ineligibility where
  | privateRepository
  | archived
  | empty
deriving DecidableEq, Repr

/-- The word for a reason. -/
def Ineligibility.toText : Ineligibility → Text
  | privateRepository => "private"
  | archived => "archived"
  | empty => "empty"

/-- Why a repository is not synced, if there is a reason. The first reason counts. -/
def ineligibility? (s : Remote.Summary) : Option Ineligibility :=
  if s.isPrivate then some .privateRepository
  else if s.isArchived then some .archived
  else if s.size ≤ 0 then some .empty
  else none

/-- The message about a repository that is not synced. -/
def Ineligibility.message (i : Ineligibility) (fullName : Text) : Text :=
  ("repository " : Text) ++ fullName ++ " is " ++ i.toText

/-! ### Runs -/

/-- The kinds of runs. -/
inductive Mode where
  | full
  | updates
deriving DecidableEq, Repr

/-- The name of a kind of run. -/
def Mode.toText : Mode → Text
  | full => "full"
  | updates => "updates"

/-- The kinds of runs by name. -/
def Mode.byName : List (Text × Mode) := [(full.toText, full), (updates.toText, updates)]

/-- Why a run fails as a whole. -/
inductive RunFailure where
  /-- A repository cannot be looked up. -/
  | notFound (fullName : Text) (cause : Remote.Fault)
  | ineligible (fullName : Text) (reason : Ineligibility)
  | remote (f : Remote.Fault)
  | store (f : Store.Fault)

/-- The message of a failed run. -/
def RunFailure.message : RunFailure → Text
  | notFound fullName f => ("failed to fetch repository " : Text) ++ fullName ++ ": " ++ f.message
  | ineligible fullName reason => reason.message fullName
  | remote f => f.message
  | store f => f.message

/-- A run, which may fail as a whole. -/
abbrev Run := ExceptT RunFailure (StateM State)

/-- The names of faults that have nothing to do with the exchange of messages. -/
def foreignFaults : List Text := ["InvalidURL", "CookieConflict", "StreamError", "StreamConsumed",
  "StreamClosed", "ResponseNotRead", "RequestNotRead"]

/-- Whether looking up a repository reckons with a fault. -/
def isLookUpFault : Remote.Fault → Bool
  | .invalid _ => true
  | .transport f => !foreignFaults.contains f.name
  | f => f.isAnswer

/-- A repository that was looked up. -/
abbrev Found := Remote.Summary × RepositorySource

/-- Looks up a repository that is to be synced. -/
def lookUpOne (p : Plan) (remote : Remote) (r : RepositorySource) : Run Found := do
  match ← (asking (p.client.summary remote r.fullName) : StateM State _) with
  | .error f => throw (if isLookUpFault f then .notFound r.fullName f else .remote f)
  | .ok s =>
    match ineligibility? s with
    | some reason => throw (.ineligible s.fullName reason)
    | none => return (s, r)

/-- Looks up repositories one after the other. -/
def lookUp (p : Plan) (remote : Remote) : List RepositorySource → Run (List Found)
  | [] => return []
  | r :: rest => do
    let found ← lookUpOne p remote r
    return found :: (← lookUp p remote rest)

/-- Whether the stored record of a repository is of its last update. -/
def isUpToDate (s : Remote.Summary) (stored : Option RepositoryRecord) : Bool :=
  stored.any fun r => r.lastUpdated == some s.updatedAt

/-- The repositories that are not up to date, with a report about the others. -/
def selectOutdated (progress : Progress) : List Found → Run (Progress × List Found)
  | [] => return (progress, [])
  | (s, r) :: rest => do
    match ← (reading (·.repository? s.name) : StateM State _) with
    | .error f => throw (.store f)
    | .ok stored =>
      if isUpToDate s stored then selectOutdated (progress.skip s.name) rest
      else
        let (progress, pending) ← selectOutdated (progress.visit s.name) rest
        return (progress, (s, r) :: pending)

/-- Syncs repositories one after the other, as a single worker does, with the report after the last;
`listed` tells whether repositories that were brought up to date are listed. -/
def syncAll (p : Plan) (remote : Remote) (listed : Bool) (progress : Progress) :
    List Found → StateM State Progress
  | [] => return progress
  | (s, r) :: rest => do
    let result ← syncRepository p remote s r
    syncAll p remote listed (progress.record listed result) rest

/-- Syncs all repositories of a plan. -/
def Plan.runFull (p : Plan) (remote : Remote) : Run Progress := do
  let found ← lookUp p remote p.repositories
  (syncAll p remote false (.start found.length) found : StateM State Progress)

/-- Syncs the repositories of a plan that are not up to date. -/
def Plan.runUpdates (p : Plan) (remote : Remote) : Run Progress := do
  modify fun s => { s with session := { s.session with cache := s.session.cache.clear } }
  let found ← lookUp p remote p.repositories
  let (progress, pending) ← selectOutdated (.start found.length) found
  (syncAll p remote true progress pending : StateM State Progress)

/-- A run of a plan. -/
def Plan.run (p : Plan) (remote : Remote) (mode : Mode) : Run Progress :=
  match mode with
  | .full => p.runFull remote
  | .updates => p.runUpdates remote

end ProviderCatalog.Sync
