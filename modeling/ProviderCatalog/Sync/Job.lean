import ProviderCatalog.Configuration.Settings
import ProviderCatalog.Sync.Run

/-!
# Sync jobs

A job is one run of a sync with its result, which also tells of a failed run. Jobs follow one
another: the limiter, the locks, the store and a shared cache outlive them, while each job has a
client of its own, with a cache of its own as long as the shared one is empty.

## Main definitions

* `JobResult`: the result of a job.
* `Jobs`: what outlives jobs.
* `Plan.ofSettings`: the plan of a job by the settings.
* `Jobs.run`, `Jobs.schedule`, `Jobs.unschedule`: a job now, and jobs in the background.
-/

namespace ProviderCatalog.Sync

open ProviderCatalog.Configuration (RepositorySource Settings)

/-- The result of a job. -/
structure JobResult where
  mode : Mode
  success : Bool
  seconds : Binary64
  progress : Option Progress
  error : Option Text
deriving DecidableEq, Repr

namespace JobResult

/-- The name of a result in messages. -/
def recordName : String := "SyncJobResult"

/-- Reads a result from a datum. -/
def check : Datum → Checked JobResult :=
  .record fun d => JobResult.mk <$> .required d "mode" (.textOneOf Mode.byName)
    <*> .required d "success" .bool <*> .required d "duration_seconds" .real
    <*> .optional d "progress" Progress.check <*> .optional d "error" .text

/-- A result as a datum. -/
def toDatum (r : JobResult) : Datum :=
  .ofFields [("mode", .text r.mode.toText), ("success", .bool r.success),
    ("duration_seconds", .real r.seconds),
    ("progress", (r.progress.map (·.toDatum)).getD .null), ("error", .ofText? r.error)]

/-- The result of a run that took some seconds. -/
def ofRun (mode : Mode) (seconds : Binary64) : Except RunFailure Progress → JobResult
  | .ok p => ⟨mode, true, seconds, some p, none⟩
  | .error f => ⟨mode, false, seconds, none, some f.message⟩

end JobResult

/-- A job that is run again and again. -/
structure Schedule where
  /-- The seconds between two runs. -/
  interval : Int
  /-- The most runs at once. -/
  maxInstances : Int
deriving DecidableEq, Repr

namespace Schedule

/-- The name by which a schedule is found. -/
def identifier : Text := "provider_sync"

/-- The title of a schedule. -/
def title : Text := "Provider Index Sync"

/-- A schedule as a datum. -/
def toDatum (s : Schedule) : Datum :=
  .ofFields [("id", .text identifier), ("name", .text title),
    ("max_instances", .int s.maxInstances), ("seconds", .int s.interval)]

/-- The schedule with an interval of some hours; where they are none, of a second. At least one run
has to be admitted. -/
def make? (hours maxInstances : Int) : Option Schedule :=
  if maxInstances < 1 then none
  else some ⟨if hours = 0 then 1 else 3600 * hours, maxInstances⟩

end Schedule

/-- The plan by the settings, for the given repositories, or the one of the settings if there are
none. -/
def Plan.ofSettings (s : Settings) (client : Remote.Client) (repositories : List RepositorySource) :
    Plan where
  client := client
  repositories :=
    if repositories.isEmpty then [⟨s.repository, none, true⟩] else repositories
  workers := s.workers
  changelogPath := s.changelogPath
  releaseLimit := s.releaseLimit
  tagPages := s.tagPages
  resourcePrefix := s.resourcePrefix

/-- A text that is not empty, or else the other one. -/
def orElse (t : Option Text) (other : Option Text) : Option Text :=
  match t with
  | some (p :: t) => some (p :: t)
  | _ => other

/-- What outlives jobs. -/
structure Jobs where
  settings : Settings
  repositories : List RepositorySource
  token : Option Text
  apiUrl : Text
  /-- The cache that jobs share once it holds something. -/
  shared : Remote.Cache
  state : State
  last : Option JobResult
  /-- The background syncs; known once there has been a schedule, and none after a stop. -/
  background : Option (Option Schedule)

namespace Jobs

/-- An empty cache as the settings want it. -/
def freshCache (s : Settings) : Remote.Cache := .empty s.cacheSeconds

/-- No jobs so far, with a store. -/
def start (s : Settings) (repositories : List RepositorySource) (token apiUrl : Option Text)
    (store : Store) : Jobs :=
  let token := (orElse token s.token).filter (!·.isEmpty)
  let limiter := Remote.Limiter.full (Remote.capacityFor token) s.windowSeconds 0
  { settings := s
    repositories := repositories
    token := token
    apiUrl := (orElse apiUrl (some s.apiUrl)).getD []
    shared := freshCache s
    state := ⟨⟨limiter, 0, freshCache s, 0, []⟩, store, .empty, []⟩
    last := none
    background := none }

/-- The client of a job, at the address of the jobs, of which slashes at the end are dropped. -/
def client (j : Jobs) : Remote.Client :=
  ⟨j.token, Text.dropRight (· == .scalar '/') j.apiUrl⟩

/-- The cache of the next job, which is the shared one unless that is empty. -/
def nextCache (j : Jobs) : Remote.Cache :=
  (Remote.adoptedCache? (some j.shared)).getD (freshCache j.settings)

/-- Whether the next job has the shared cache. -/
def sharesCache (j : Jobs) : Bool := (Remote.adoptedCache? (some j.shared)).isSome

/-- What begins the line about a failed job. -/
def failureMessage : Text := "Sync failed with exception: "

/-- Runs a job through a client, which takes some seconds. -/
def runThrough (j : Jobs) (client : Remote.Client) (remote : Remote) (mode : Mode)
    (seconds : Binary64) : JobResult × Jobs :=
  let before := { j.state with session := { j.state.session with cache := j.nextCache } }
  let plan := Plan.ofSettings j.settings client j.repositories
  let (outcome, after) := (plan.run remote mode).run.run before
  let result := JobResult.ofRun mode seconds outcome
  let lines := result.error.toList.map fun e => ⟨.error, failureMessage ++ e⟩
  let after := { after with log := after.log ++ lines }
  let shared := if j.sharesCache then after.session.cache else j.shared
  (result, { j with shared, state := after, last := some result })

/-- Runs a job. -/
def run (j : Jobs) (remote : Remote) (mode : Mode) (seconds : Binary64) : JobResult × Jobs :=
  j.runThrough j.client remote mode seconds

/-- Schedules updating syncs; there is no schedule if it would admit no run. -/
def schedule (j : Jobs) (hours maxInstances : Int) : Option Schedule × Jobs :=
  let s := Schedule.make? hours maxInstances
  (s, { j with background := some s })

/-- Ends the background syncs, with a warning if a schedule has ended already. -/
def unschedule (j : Jobs) : Jobs :=
  match j.background with
  | none => j
  | some (some _) => { j with background := some none }
  | some none =>
    let line := ⟨.warning, "Sync job not found during shutdown"⟩
    { j with state := { j.state with log := j.state.log ++ [line] } }

end Jobs

end ProviderCatalog.Sync
