import ProviderCatalog.Validation.Record

/-!
# Results of a sync

The sync of one repository succeeds or fails, and the syncs of all repositories add up to a progress
report.

## Main definitions

* `RepositoryResult`: what became of one repository.
* `Progress`, `Progress.start`, `Progress.record`: the report, and how a result is added to it.
-/

namespace ProviderCatalog.Sync

/-- What became of one repository. -/
structure RepositoryResult where
  name : Text
  success : Bool
  error : Option Text
  /-- Whether there was no archive to be had, so that nothing is stored about the repository. -/
  unavailable : Bool
deriving DecidableEq, Repr

namespace RepositoryResult

/-- The name of a result in messages. -/
def recordName : String := "RepoSyncResult"

/-- Reads a result from a datum. -/
def check : Datum → Checked RepositoryResult :=
  .record fun d => RepositoryResult.mk <$> .required d "name" .text <*> .required d "success" .bool
    <*> .optional d "error" .text <*> .withDefault d "unavailable" false .bool

/-- A result as a datum. -/
def toDatum (r : RepositoryResult) : Datum :=
  .ofFields [("name", .text r.name), ("success", .bool r.success), ("error", .ofText? r.error),
    ("unavailable", .bool r.unavailable)]

end RepositoryResult

/-- A report about the repositories of one run. -/
structure Progress where
  total : Int
  processed : Int
  skipped : Int
  /-- The repository that was dealt with last. -/
  current : Option Text
  errors : List Text
  /-- The repositories that were brought up to date. -/
  updated : List Text
deriving DecidableEq, Repr

namespace Progress

/-- The name of a report in messages. -/
def recordName : String := "SyncProgress"

/-- Reads a report from a datum. -/
def check : Datum → Checked Progress :=
  .record fun d => Progress.mk <$> .withDefault d "total_repos" 0 (.intAtLeast 0)
    <*> .withDefault d "processed_repos" 0 (.intAtLeast 0)
    <*> .withDefault d "skipped_repos" 0 (.intAtLeast 0) <*> .optional d "current_repo" .text
    <*> .withDefault d "errors" [] (.list .text) <*> .withDefault d "updated_repos" [] (.list .text)

/-- A report as a datum. -/
def toDatum (p : Progress) : Datum :=
  .ofFields [("total_repos", .int p.total), ("processed_repos", .int p.processed),
    ("skipped_repos", .int p.skipped), ("current_repo", .ofText? p.current),
    ("errors", .ofTexts p.errors), ("updated_repos", .ofTexts p.updated)]

/-- The report at the start of a run over a number of repositories. -/
def start (total : Nat) : Progress := ⟨total, 0, 0, none, [], []⟩

/-- The report after a repository that needs no sync. -/
def skip (p : Progress) (name : Text) : Progress :=
  { p with current := some name, skipped := p.skipped + 1, processed := p.processed + 1 }

/-- The report on the way to a repository that needs a sync. -/
def visit (p : Progress) (name : Text) : Progress := { p with current := some name }

/-- The report after a repository was synced; `listed` tells whether repositories that were brought
up to date are listed. -/
def record (listed : Bool) (p : Progress) (r : RepositoryResult) : Progress :=
  { p with
    current := some r.name
    processed := p.processed + 1
    errors := p.errors ++ if r.success then [] else [r.error.getD []]
    updated := p.updated ++ if r.success && listed && !r.unavailable then [r.name] else [] }

end Progress

end ProviderCatalog.Sync
