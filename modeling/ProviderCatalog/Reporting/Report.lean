import ProviderCatalog.Sync.Job
import ProviderCatalog.Text.Search

/-!
# Reports about jobs

A finished job is reported to a collector as one record: a line of text, a severity, and attributes.

## Main definitions

* `signalAddress`: where a collector takes a kind of signal.
* `severityNumber`: severities of log lines on the scale of reports.
* `Report`, `Report.ofResult`: reports, and the report about a job.
-/

namespace ProviderCatalog.Reporting

/-- The address where a collector takes signals, by the path of their kind. -/
def signalAddress (collector path : Text) : Text :=
  if collector.endsWith path then collector
  else Text.dropRight (· == .scalar '/') collector ++ path

/-- The path of log records. -/
def logPath : Text := "/v1/logs"

/-- The path of traces. -/
def tracePath : Text := "/v1/traces"

/-- The number of a severity in reports, by the level of a log line. -/
def severityNumber (level : Int) : Int :=
  if 50 ≤ level then 21
  else if 40 ≤ level then 17
  else if 30 ≤ level then 13
  else if 20 ≤ level then 9
  else 5

/-- The level of log lines about failures. -/
def errorLevel : Int := 40

/-- The level of log lines that inform. -/
def infoLevel : Int := 20

/-- The most code points of an error in a report. -/
def maxErrorLength : Nat := 500

/-- An error as a report has it. -/
def shortened (t : Text) : Text :=
  if maxErrorLength < t.length then t.take maxErrorLength ++ "..." else t

/-- A report about a job. -/
structure Report where
  body : Text
  severity : Int
  attributes : List (Text × Datum)

namespace Report

/-- The attributes of every report. -/
def runAttributes (r : Sync.JobResult) : List (Text × Datum) := [
  ("sync.mode", .text r.mode.toText), ("sync.success", .bool r.success),
  ("sync.duration_seconds", .real r.seconds)]

/-- The attributes that tell about the progress of a job. -/
def progressAttributes (p : Sync.Progress) : List (Text × Datum) := [
  ("sync.total_repos", .int p.total), ("sync.processed_repos", .int p.processed),
  ("sync.skipped_repos", .int p.skipped), ("sync.error_count", .int p.errors.length),
  ("sync.updated_count", .int p.updated.length)]

/-- The parts of the text about the progress of a job. -/
def progressParts (p : Sync.Progress) : List Text :=
  let counts := ("processed=" : Text) ++ Text.ofInt p.processed ++ "/" ++ Text.ofInt p.total
    ++ " skipped=" ++ Text.ofInt p.skipped ++ " errors=" ++ Text.ofNat p.errors.length
  counts :: if p.updated.isEmpty then [] else [("updated=" : Text) ++ Text.join "," p.updated]

/-- The report about a job. -/
def ofResult (r : Sync.JobResult) : Report where
  body := Text.join " " (
    [("[sync:" : Text) ++ r.mode.toText ++ "]", if r.success then "SUCCESS" else "FAILED"]
      ++ (r.progress.map progressParts).getD [])
  severity := severityNumber (if r.success then infoLevel else errorLevel)
  attributes :=
    runAttributes r ++ (r.progress.map progressAttributes).getD []
      ++ ((r.error.filter (!·.isEmpty)).map fun e =>
        (("error.message" : Text), Datum.text (shortened e))).toList

/-- A report as a datum. -/
def toDatum (r : Report) : Datum :=
  .ofFields [("body", .text r.body), ("severity", .int r.severity),
    ("attributes", .ofFields r.attributes)]

end Report

end ProviderCatalog.Reporting
