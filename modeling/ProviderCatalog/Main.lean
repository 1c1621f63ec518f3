import ProviderCatalog.CommandLine.Command
import ProviderCatalog.Reporting.Reporter

/-!
# The program

The program reads its settings, carries out its command line on a store in memory, and prints the
warnings and errors on the way. It has no network: every request meets a connection that cannot be
made.

## Main definitions

* `Program.run`: a command line carried out.
-/

namespace ProviderCatalog.Program

open CommandLine ProviderCatalog.Configuration

/-- A remote side out of reach. -/
def outOfReach : Remote := fun _ _ => .fault ⟨"ConnectError", "All connection attempts failed"⟩

/-- What is found at a path. -/
def find (path : String) : IO FileState := do
  try
    let bytes ← IO.FS.readBinFile path
    return .file bytes.data.toList
  catch
    | .noFileOrDirectory .. => return .absent
    | _ => return .directory

/-- The names of the variables that matter. -/
def variableNames : List Text :=
  let settings := match Settings.standard.toDatum with
    | .mapping es => es.filterMap fun
      | (.text k, _) => some k.upper
      | _ => none
    | _ => []
  settings ++ [refreshVariable]

/-- The variables of the environment that matter. -/
def environment : IO (List (Text × Text)) := do
  let found ← variableNames.mapM fun name => do
    let value ← IO.getEnv name.toStringLossy
    return value.map fun v => (name, Text.ofString v)
  return found.filterMap id

/-- The name of the environment file. -/
def environmentFile : String := ".env"

/-- The variables of the environment file. -/
def fileVariables (known : List (Text × Text)) : IO (List EnvironmentFile.Binding) := do
  match ← find environmentFile with
  | .file bytes =>
    match TextFile.read bytes with
    | .ok t => return EnvironmentFile.read known t
    | .error f => throw (IO.userError f.message.toStringLossy)
  | _ => return []

/-- Prints lines of the log. -/
def printLog (ls : List Sync.LogLine) : IO Unit :=
  ls.forM fun l => IO.println l.toText.toStringLossy

/-- Runs syncs in the background until the program is stopped. -/
partial def repeatJobs (s : Settings) (jobs : Sync.Jobs) (hours : Int) : IO Unit := do
  let (_, after) := jobs.run outOfReach .updates (.ofFraction false 0 1)
  printLog (after.state.log.drop jobs.state.log.length)
  IO.sleep (UInt32.ofNat (hours.toNat * 3600000))
  repeatJobs s after hours

/-- Carries out what a command line asks for. -/
def carryOut (s : Settings) (w : Work) : IO UInt32 := do
  let outcome := w.perform s Store.ready outOfReach (.ofFraction false 0 1)
  if let some jobs := outcome.jobs then
    printLog jobs.state.log
    if let .background hours _ := w.task then repeatJobs s jobs hours
  printLog outcome.ending.log
  return UInt32.ofNat outcome.ending.code

/-- Carries out a command line. -/
def run (args : List String) : IO UInt32 := do
  match Options.read (args.map Text.ofString) with
  | .error .help =>
    IO.println usage
    return 0
  | .error .misuse =>
    IO.eprintln usage
    return 2
  | .ok o =>
    let known ← environment
    let further ← fileVariables known
    match (Settings.ofVariables known further).asRecord Settings.recordName with
    | .error e =>
      IO.eprintln e.message.toStringLossy
      return 1
    | .ok s =>
      let all := known ++ further.filterMap fun v => v.2.map (v.1, ·)
      let path := (o.sources.getD standardPath).toStringLossy
      let state ← find (if path.isEmpty then "." else path)
      match Work.of s o (sourcesFor all (fun _ => state) o.sources) with
      | .error ending =>
        printLog ending.log
        return UInt32.ofNat ending.code
      | .ok w => carryOut s w

end ProviderCatalog.Program

/-- The program: zero if nothing failed, one if something did, two for a command line that is not
understood. -/
def main (args : List String) : IO UInt32 := ProviderCatalog.Program.run args
