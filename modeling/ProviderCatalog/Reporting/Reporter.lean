import ProviderCatalog.Reporting.Report

/-!
# Reporters

A reporter sends reports about jobs and traces of requests, each if the settings want it and the
sender for it can be set up. Whatever fails is no more than a warning.

## Main definitions

* `Outages`: what fails around a reporter.
* `Reporter`, `Reporter.start`, `Reporter.report`: reporters and what they do.
* `Desk`, `Desk.obtain`: the one reporter of the application.
-/

namespace ProviderCatalog.Reporting

open ProviderCatalog.Configuration (Settings)

/-- What fails around a reporter, with the messages of the failures. -/
structure Outages where
  /-- The sender of log records. -/
  logs : Option Text
  /-- The sender of traces. -/
  traces : Option Text
  /-- Each log record. -/
  record : Option Text
  /-- The tracing of requests. -/
  requests : Option Text

/-- A reporter. -/
structure Reporter where
  sendsLogs : Bool
  sendsTraces : Bool
  /-- The addresses that senders of log records were set up for. -/
  logAddresses : List Text
  /-- The addresses that senders of traces were set up for. -/
  traceAddresses : List Text
  sent : List Report
  warnings : List Text

namespace Reporter

/-- The warning that one kind of signals is not sent. -/
def setUpMessage (kind consequence : Text) (fault : Text) : Text :=
  ("Failed to initialize OTel " : Text) ++ kind ++ ": " ++ fault ++ ". " ++ consequence
    ++ " disabled."

/-- A reporter at work. -/
def start (s : Settings) (o : Outages) : Reporter :=
  let logs := if s.loggingEnabled then some (signalAddress s.collector logPath) else none
  let traces := if s.tracingEnabled then some (signalAddress s.collector tracePath) else none
  let logFault := logs.bind fun _ => o.logs
  let traceFault := traces.bind fun _ => o.traces
  { sendsLogs := logs.isSome && logFault.isNone
    sendsTraces := traces.isSome && traceFault.isNone
    logAddresses := logs.toList
    traceAddresses := traces.toList
    sent := []
    warnings := (logFault.map (setUpMessage "logging" "Logging")).toList
      ++ (traceFault.map (setUpMessage "tracing" "Tracing")).toList }

/-- Reports about a job. -/
def report (r : Reporter) (o : Outages) (result : Sync.JobResult) : Reporter :=
  if !r.sendsLogs then r
  else match o.record with
    | some fault =>
      { r with warnings := r.warnings ++ [("Failed to log telemetry: " : Text) ++ fault] }
    | none => { r with sent := r.sent ++ [.ofResult result] }

end Reporter

/-- The one reporter of the application, once there is one, and the tracing of requests, which is
set up before the reporter. -/
structure Desk where
  reporter : Option Reporter
  tracesRequests : Bool
  /-- How often the tracing of requests was tried to be set up. -/
  attempts : Nat
  warnings : List Text

namespace Desk

/-- The desk at the start. -/
def closed : Desk := ⟨none, false, 0, []⟩

/-- Sets up the tracing of requests, if the settings want it and it is not set up. -/
def traceRequests (d : Desk) (s : Settings) (o : Outages) : Desk :=
  if d.tracesRequests || !s.tracingEnabled then d
  else match o.requests with
    | none => { d with tracesRequests := true, attempts := d.attempts + 1 }
    | some fault =>
      let message := ("Failed to initialize HTTP tracing instrumentation: " : Text) ++ fault
      { d with attempts := d.attempts + 1, warnings := d.warnings ++ [message] }

/-- Asks for the reporter, which is made for the first who asks. -/
def obtain (d : Desk) (s : Settings) (o : Outages) : Desk :=
  let d := d.traceRequests s o
  match d.reporter with
  | some _ => d
  | none =>
    let r := Reporter.start s o
    { d with reporter := some r, warnings := d.warnings ++ r.warnings }

end Desk

end ProviderCatalog.Reporting
