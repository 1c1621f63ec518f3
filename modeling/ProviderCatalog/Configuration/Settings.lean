import ProviderCatalog.Configuration.EnvironmentFile
import ProviderCatalog.Configuration.Sources
import ProviderCatalog.Text.Case

/-!
# Settings of the application

Every setting has a standard value, which a variable of the environment or of an environment file
replaces. Names of variables are the names of settings in any case, and the environment beats the
file.

## Main definitions

* `Settings`, `Settings.standard`, `Settings.check`: the settings, their standard values, and the
  settings of a mapping.
* `Settings.ofVariables`: the settings of an environment and an environment file.
-/

namespace ProviderCatalog.Configuration

/-- The settings of the application. -/
structure Settings where
  token : Option Text
  apiUrl : Text
  /-- The full name of the repository that is synced where no other is configured. -/
  repository : Text
  /-- The prefix of resource names where a repository has none of its own. -/
  resourcePrefix : Text
  timeoutSeconds : Binary64
  cacheSeconds : Int
  /-- The time after which the requests of the limiter are renewed. -/
  windowSeconds : Int
  storePath : Text
  workers : Int
  intervalHours : Int
  changelogPath : Text
  releaseLimit : Int
  tagPages : Int
  logLevel : Text
  loggingEnabled : Bool
  tracingEnabled : Bool
  /-- The address that reports are sent to. -/
  collector : Text
  serviceName : Text
  serviceVersion : Text
deriving DecidableEq, Repr

namespace Settings

/-- The name of the settings in messages. -/
def recordName : String := "AppConfig"

/-- The standard values. -/
def standard : Settings where
  token := none
  apiUrl := HostAccess.publicApiUrl
  repository := "hashicorp/terraform-provider-azurerm"
  resourcePrefix := "azurerm"
  timeoutSeconds := .ofFraction false 30 1
  cacheSeconds := 600
  windowSeconds := 3600
  storePath := "./data/provider_index.db"
  workers := 4
  intervalHours := 24
  changelogPath := "CHANGELOG.md"
  releaseLimit := 40
  tagPages := 5
  logLevel := "INFO"
  loggingEnabled := false
  tracingEnabled := false
  collector := "http://localhost:4318"
  serviceName := "provider-index"
  serviceVersion := "0.1.0"

/-- How the application names itself in requests: by its name and its version. -/
def userAgent (s : Settings) : Text := s.serviceName ++ "/" ++ s.serviceVersion

/-- Reads settings from a datum. -/
def check : Datum → Checked Settings :=
  .record fun d => Settings.mk <$> .optional d "github_token" .text
    <*> .withDefault d "github_api_url" standard.apiUrl .text
    <*> .withDefault d "repository" standard.repository .text
    <*> .withDefault d "resource_prefix" standard.resourcePrefix .text
    <*> .withDefault d "http_timeout_seconds" standard.timeoutSeconds (.realBetween 1 600)
    <*> .withDefault d "cache_ttl_seconds" standard.cacheSeconds (.intAtLeast 0)
    <*> .withDefault d "rate_limit_window_seconds" standard.windowSeconds (.intAtLeast 1)
    <*> .withDefault d "db_path" standard.storePath .text
    <*> .withDefault d "sync_workers" standard.workers (.intBetween 1 32)
    <*> .withDefault d "sync_interval_hours" standard.intervalHours (.intBetween 1 168)
    <*> .withDefault d "changelog_file" standard.changelogPath .text
    <*> .withDefault d "max_release_history" standard.releaseLimit (.intBetween 1 500)
    <*> .withDefault d "tag_max_pages" standard.tagPages (.intBetween 1 50)
    <*> .withDefault d "log_level" standard.logLevel .text
    <*> .withDefault d "otel_logging_enabled" standard.loggingEnabled .bool
    <*> .withDefault d "otel_tracing_enabled" standard.tracingEnabled .bool
    <*> .withDefault d "otel_endpoint" standard.collector .text
    <*> .withDefault d "otel_service_name" standard.serviceName .text
    <*> .withDefault d "otel_service_version" standard.serviceVersion .text

/-- Settings as a datum. -/
def toDatum (s : Settings) : Datum :=
  .ofFields [("github_token", .ofText? s.token), ("github_api_url", .text s.apiUrl),
    ("repository", .text s.repository), ("resource_prefix", .text s.resourcePrefix),
    ("http_timeout_seconds", .real s.timeoutSeconds), ("cache_ttl_seconds", .int s.cacheSeconds),
    ("rate_limit_window_seconds", .int s.windowSeconds), ("db_path", .text s.storePath),
    ("sync_workers", .int s.workers), ("sync_interval_hours", .int s.intervalHours),
    ("changelog_file", .text s.changelogPath), ("max_release_history", .int s.releaseLimit),
    ("tag_max_pages", .int s.tagPages), ("log_level", .text s.logLevel),
    ("otel_logging_enabled", .bool s.loggingEnabled),
    ("otel_tracing_enabled", .bool s.tracingEnabled), ("otel_endpoint", .text s.collector),
    ("otel_service_name", .text s.serviceName), ("otel_service_version", .text s.serviceVersion)]

/-- Variables with their names in lower case; of several with one name the last counts. -/
def lowered (vs : List EnvironmentFile.Binding) : List EnvironmentFile.Binding :=
  vs.foldl (fun found v => EnvironmentFile.put v.1.lower v.2 found) []

/-- The settings of an environment and the variables of an environment file. -/
def ofVariables (environment : List (Text × Text)) (file : List EnvironmentFile.Binding) :
    Checked Settings :=
  let known := lowered (environment.map fun (k, v) => (k, some v))
  let unknown := (lowered file).filter fun v => (known.lookup v.1).isNone
  check (.ofFields ((unknown ++ known).filterMap fun v => v.2.map fun t => (v.1, .text t)))

end Settings

end ProviderCatalog.Configuration
