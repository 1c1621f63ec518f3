import ProviderCatalog.Configuration.Sources
import ProviderCatalog.Configuration.TextFile
import ProviderCatalog.Text.Case
import ProviderCatalog.Yaml.Document

/-!
# Files with sources

The sources are written in a file, which is a YAML document with a mapping. The environment can
switch syncs in the background on or off, whatever the file says.

## Main definitions

* `SourcesFault`, `SourcesFault.message`: why sources cannot be loaded.
* `Sources.ofBytes`, `Sources.load`: the sources of a file.
-/

namespace ProviderCatalog.Configuration

/-- Why sources cannot be loaded. -/
inductive SourcesFault where
  | absent (path : Text)
  | directory (path : Text)
  | undecodable (f : DecodeFault)
  | document (f : Yaml.Fault)
  | empty
  | notMapping
  /-- A key of the mapping is not a text. -/
  | foreignKey
  | invalid (e : Invalid)
deriving DecidableEq, Repr

namespace SourcesFault

/-- What messages about the contents of a file begin with. -/
def contentsMessage : Text := "Failed to load sources configuration"

/-- The message about sources that cannot be loaded. -/
def message : SourcesFault → Text
  | absent path => ("Sources configuration file not found: " : Text) ++ path
      ++ "\nSee sources.yaml.example for the expected layout."
  | directory path => ("[Errno 21] Is a directory: " : Text) ++ path.inQuotes
  | undecodable f => f.message
  | document .malformed => "Invalid YAML in sources configuration"
  | document f => f.message
  | empty => "Sources configuration file is empty"
  | notMapping => "Sources configuration must be a mapping at the top level"
  | foreignKey | invalid _ => contentsMessage

end SourcesFault

/-- The words that switch something on, in lower case. -/
def onWords : List Text := ["true", "1", "yes"]

/-- Whether the word of a variable switches something on. -/
def isOnWord (t : Text) : Bool := onWords.contains t.trim.lower

/-- The name of the variable that switches syncs in the background on or off. -/
def refreshVariable : Text := "REFRESH_ENABLED"

namespace Sources

/-- The sources that a datum denotes. -/
def ofDatum (d : Datum) : Except SourcesFault Sources :=
  if !d.isTruthy then .error .empty
  else match d with
    | .mapping es =>
      if es.any fun e => match e.1 with
        | .text _ => false
        | _ => true
      then .error .foreignKey
      else ((check d).asRecord recordName).mapError .invalid
    | _ => .error .notMapping

/-- The sources in the contents of a file. -/
def ofBytes (bs : Bytes) : Except SourcesFault Sources := do
  let t ← (TextFile.read bs).mapError .undecodable
  let d ← (Yaml.read t.toStringLossy.toList).mapError .document
  ofDatum d

/-- The sources with syncs in the background switched as the environment says. -/
def switched (environment : List (Text × Text)) (s : Sources) : Sources :=
  match environment.lookup refreshVariable with
  | some word => { s with refresh := { s.refresh with enabled := isOnWord word } }
  | none => s

/-- The sources in the file at a path. -/
def load (environment : List (Text × Text)) (path : Text) (found : FileState) :
    Except SourcesFault Sources :=
  match found with
  | .absent => .error (.absent (plainPath path))
  | .directory => .error (.directory (plainPath path))
  | .file bs => (ofBytes bs).map (switched environment)

end Sources

end ProviderCatalog.Configuration
