import ProviderCatalog.CommandLine.Options
import ProviderCatalog.Configuration.SourcesFile
import ProviderCatalog.Sync.Job

/-!
# The sync command

The command loads the sources, if there are any, runs one sync or schedules syncs in the background,
and ends with an exit code, which is zero only if nothing failed.

## Main definitions

* `Work`, `Work.of`: what a command line asks for.
* `Ending`, `Ending.ofResult`: how the command ends.
* `perform`: the whole command where it runs one sync.
-/

namespace ProviderCatalog.CommandLine

open ProviderCatalog.Configuration (FileState RepositorySource Settings Sources SourcesFault)

/-- How the work is done. -/
inductive Task where
  | once (mode : Sync.Mode)
  /-- Syncs in the background. -/
  | background (intervalHours maxJobs : Int)
deriving DecidableEq, Repr

/-- What a command line asks for. -/
structure Work where
  /-- The repositories of the sources, if there are sources. -/
  repositories : Option (List RepositorySource)
  token : Option Text
  apiUrl : Option Text
  task : Task
deriving DecidableEq, Repr

/-- How the command ends. -/
structure Ending where
  code : Nat
  log : List Sync.LogLine
deriving DecidableEq, Repr

namespace Ending

/-- The ending after a failure. -/
def failed (messages : List Text) : Ending := ⟨1, messages.map (⟨.error, ·⟩)⟩

/-- The ending after a fault that nothing reckons with. -/
def unexpected (message : Text) : Ending := failed [("Unexpected error: " : Text) ++ message]

/-- The ending if the sources cannot be loaded. -/
def ofSourcesFault (f : SourcesFault) : Ending :=
  match f with
  | .absent _ => failed [("Configuration file not found: " : Text) ++ f.message]
  | .directory _ => unexpected f.message
  | .document .emptyNumber | .document (.noTruthValue _) | .document .noMoment =>
    unexpected f.message
  | .document (.noCodePoint n) =>
    if n ≤ Yaml.largestNumber then failed [("Invalid configuration: " : Text) ++ f.message]
    else unexpected f.message
  | _ => failed [("Invalid configuration: " : Text) ++ f.message]

/-- The ending after a job. Errors about single repositories are shown, and count as a failure. -/
def ofResult (r : Sync.JobResult) : Ending :=
  if !r.success then failed [("Sync failed: " : Text) ++ r.error.getD "None"]
  else match r.progress with
    | some p => if p.errors.isEmpty then ⟨0, []⟩ else failed p.errors
    | none => ⟨0, []⟩

end Ending

/-- The path of the sources where no other is given. -/
def standardPath : Text := "sources.yaml"

/-- The sources at the given path, or at the standard one if there is something. -/
def sourcesFor (environment : List (Text × Text)) (found : Text → FileState)
    (path : Option Text) : Except SourcesFault (Option Sources) :=
  match path with
  | some p => (Sources.load environment p (found p)).map some
  | none =>
    match found standardPath with
    | .absent => .ok none
    | state => (Sources.load environment standardPath state).map some

/-- How the work is done by the options and the sources. -/
def Task.of (s : Settings) (o : Options) (sources : Option Sources) : Task :=
  if o.schedule || sources.any (·.refresh.enabled) then
    match sources with
    | some x => .background x.refresh.intervalHours x.refresh.maxJobs
    | none => .background s.intervalHours 1
  else .once (if o.updates then .updates else .full)

/-- What options ask for, or how the command ends without any work. -/
def Work.of (s : Settings) (o : Options) (sources : Except SourcesFault (Option Sources)) :
    Except Ending Work :=
  match sources with
  | .error f => .error (.ofSourcesFault f)
  | .ok none => .ok ⟨none, none, none, .of s o none⟩
  | .ok (some x) =>
    if x.enabled.isEmpty then .error (.failed ["No enabled repositories in sources configuration"])
    else .ok ⟨some x.enabled, x.access.token, some x.access.apiUrl, .of s o (some x)⟩

/-- The jobs that do the work on a store. -/
def Work.jobs (w : Work) (s : Settings) (store : Store) : Sync.Jobs :=
  .start s (w.repositories.getD []) w.token w.apiUrl store

/-- What a command line leaves behind: the ending, and the jobs with the store if there was work. -/
structure Outcome where
  ending : Ending
  jobs : Option Sync.Jobs

/-- Carries out the work, which takes some seconds if it is one sync. -/
def Work.perform (w : Work) (s : Settings) (store : Store) (remote : Remote)
    (seconds : Binary64) : Outcome :=
  let jobs := w.jobs s store
  match w.task with
  | .once mode =>
    let (result, jobs) := jobs.run remote mode seconds
    ⟨.ofResult result, some jobs⟩
  | .background hours maxJobs => ⟨⟨0, []⟩, some (jobs.schedule hours maxJobs).2⟩

/-- Carries out options. -/
def perform (s : Settings) (environment : List (Text × Text)) (found : Text → FileState)
    (o : Options) (store : Store) (remote : Remote) (seconds : Binary64) : Outcome :=
  match Work.of s o (sourcesFor environment found o.sources) with
  | .error ending => ⟨ending, none⟩
  | .ok w => w.perform s store remote seconds

end ProviderCatalog.CommandLine
