import ProviderCatalog.Configuration.Sources
import ProviderCatalog.Remote.Client

/-!
# Plans of a sync

A plan says which repositories are synced through which client, and how much of their history is
kept.

## Main definitions

* `Plan`: the plans.
* `Plan.workersFor`: how many repositories are worked on at once.
* `Plan.prefixFor`: the prefix of the resource names of a repository.
-/

namespace ProviderCatalog.Sync

open ProviderCatalog.Configuration (RepositorySource)

/-- A plan of a sync. -/
structure Plan where
  client : Remote.Client
  repositories : List RepositorySource
  /-- The wanted number of workers. -/
  workers : Int
  /-- The path of the changelog. -/
  changelogPath : Text
  /-- The most releases that are kept. -/
  releaseLimit : Int
  /-- The most pages of tags that are asked for. -/
  tagPages : Int
  /-- The prefix of resource names where a repository has none of its own. -/
  resourcePrefix : Text
deriving DecidableEq, Repr

namespace Plan

/-- The number of workers where the wanted number makes no sense. -/
def defaultWorkers : Int := 4

/-- How many of `total` repositories are worked on at once while the limiter has `remaining`
tokens. -/
def workersFor (p : Plan) (remaining total : Int) : Int :=
  if total < 1 then 0
  else if total = 1 then 1
  else max (min (min (if 0 < p.workers then p.workers else defaultWorkers) total) remaining) 1

/-- The prefix of the resource names of a repository. -/
def prefixFor (p : Plan) (r : RepositorySource) : Text :=
  match r.resourcePrefix with
  | some (c :: t) => c :: t
  | _ => p.resourcePrefix

end Plan

end ProviderCatalog.Sync
