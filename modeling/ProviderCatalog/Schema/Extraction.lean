import ProviderCatalog.Schema.Registration
import ProviderCatalog.Schema.Resource

/-!
# Extracting the resources of a provider

The files of a provider are parsed, those with syntax errors left out with a warning. Each
registration with a builder is resolved to the literal that the builder returns, in the file of the
registration before any other; a registration that cannot be resolved is skipped with a warning.

## Main definitions

* `ExtractionFailure`: why extraction fails as a whole.
* `Provider`, `Provider.ofFiles`: the parsed files of a provider.
* `Provider.resource`: the resource of a registration.
* `Provider.extract`: the resources of a provider with the warnings on the way.
-/

namespace ProviderCatalog.Schema

open Go (Node Source SourceError)

/-- Why extraction fails. -/
inductive ExtractionFailure where
  | noSources
  | nothingFound
  | builderMissing (name : Text)
  | literalMissing (name : Text)
  /-- A name that can be no name of a record. -/
  | invalid (e : Invalid)
  /-- A file that cannot be encoded. -/
  | notUnicode

namespace ExtractionFailure

/-- The message of a failure that is not a defect of a record. -/
def message : ExtractionFailure → Text
  | noSources => "no Go files discovered"
  | nothingFound => "no provider resources or data sources discovered"
  | builderMissing n => "builder function " ++ n ++ " not found"
  | literalMissing n => "builder function " ++ n ++ " returns no resource literal"
  | invalid e => e.message
  | notUnicode => "file content cannot be encoded"

end ExtractionFailure

/-- The parsed files of a provider. -/
structure Provider where
  sources : List Source
  providerPrefix : Text

/-- The warning about a file with a syntax error. -/
def parseWarning (path : Text) : Text :=
  "Failed to parse Go file " ++ path ++ ": " ++ Go.syntaxErrorMessage path

/-- The warning about a registration that cannot be resolved. -/
def skipWarning (typeName : Text) (e : ExtractionFailure) : Text :=
  "Skipping " ++ typeName ++ ": " ++ e.message

/-- The sources among files, with a warning for each file that has a syntax error. -/
def parseFiles : List RepositoryFile → Except ExtractionFailure (List Source × List Text)
  | [] => .ok ([], [])
  | f :: rest =>
    if !f.name.endsWith ".go" then parseFiles rest
    else match Source.ofFile f with
      | .ok s => do
        let (ss, ws) ← parseFiles rest
        return (s :: ss, ws)
      | .error (.syntaxError p) => do
        let (ss, ws) ← parseFiles rest
        return (ss, parseWarning p :: ws)
      | .error .notUnicode => .error .notUnicode

namespace Provider

/-- The provider whose files are given, with the warnings about its files. -/
def ofFiles (providerPrefix : Text) (files : List RepositoryFile) :
    Except ExtractionFailure (Provider × List Text) := do
  let (ss, ws) ← parseFiles files
  return (⟨ss, providerPrefix⟩, ws)

/-- The function with a name, in the preferred source or else in the first source that has it. -/
def function? (p : Provider) (name : Text) (preferred : Source) : Option (Source × Node) :=
  match preferred.function? name with
  | some d => some (preferred, d)
  | none => p.sources.findSome? fun s => (s.function? name).map (s, ·)

/-- A builder function with the literal that it returns. -/
structure Builder where
  name : Text
  source : Source
  declaration : Node
  literal : Node.Literal

/-- The builder with a name. -/
def builder (p : Provider) (name : Text) (preferred : Source) : Except ExtractionFailure Builder :=
  match p.function? name preferred with
  | none => .error (.builderMissing name)
  | some (s, d) =>
    match d.returnedLiteral? with
    | none => .error (.literalMissing name)
    | some l => .ok ⟨name, s, d, l⟩

namespace Builder

/-- The value of a field of the literal. -/
def field? (b : Builder) (key : String) : Option Node := b.literal.braces.fieldValue? key

/-- The text of a field of the literal. -/
def fieldText? (b : Builder) (key : String) : Option Text :=
  (b.field? key).bind fun n => present? n.text

/-- The string that a field of the literal spells, or its text. -/
def fieldString? (b : Builder) (key : String) : Option Text := (b.field? key).bind stringOrText?

/-- The parts of the source of the builder. -/
def snippets (b : Builder) : SnippetBundle where
  functionName := b.name
  filePath := b.source.path
  function := present? b.declaration.text
  schema := present? ((b.field? "Schema").getD b.literal.expression).text
  customizeDiff := b.fieldText? "CustomizeDiff"
  timeouts := b.fieldText? "Timeouts"
  stateUpgraders := b.fieldText? "StateUpgraders"
  importer := b.fieldText? "Importer"

end Builder

/-- The braces of the literal that holds a schema: the value itself, or what the function returns
that it calls. -/
def schemaBody? (p : Provider) (value : Node) (s : Source) : Option Node :=
  match value.literalBody? with
  | some b => some b
  | none => do
    let name ← value.callName?
    let (_, d) ← p.function? name s
    return (← d.returnedLiteral?).braces

/-- The name and the schema literal of an entry of a schema. -/
def schemaElement? (entry : Node × Node) : Option (Text × Node) :=
  let name := match entry.1.stringValue? with
    | some (q :: t) => q :: t
    | _ => entry.1.text
  if name.isEmpty then none else entry.2.literalBody?.map (name, ·)

/-- The attributes of a schema. -/
def attributes (p : Provider) (value : Node) (s : Source) : Except Invalid (List Attribute) :=
  match p.schemaBody? value s with
  | none => .ok []
  | some b => (b.keyedElements.filterMap schemaElement?).mapM fun (n, l) => Attribute.ofLiteral n l

/-- A text, or nothing if it is empty. -/
def nonEmpty? (t : Text) : Option Text := if t.isEmpty then none else some t

/-- The resource of a registration by a structure. -/
def bareResource (p : Provider) (r : Registration) (s : Source) : Resource where
  name := r.typeName
  kind := r.kind
  displayName := some (Schema.displayName r.typeName p.providerPrefix)
  filePath := none
  description := none
  deprecation := none
  breakingChanges := none
  apiVersion := none
  attributes := []
  source := none
  serviceDirectory := serviceDirectory? s.path

/-- The resource that a builder makes of a registration. -/
def builtResource (p : Provider) (r : Registration) (b : Builder) : Except Invalid Resource := do
  let as ← match b.field? "Schema" with
    | some v => p.attributes v b.source
    | none => pure []
  return {
    name := r.typeName
    kind := r.kind
    displayName := some (Schema.displayName r.typeName p.providerPrefix)
    filePath := some b.source.path
    description := b.fieldString? "Description"
    deprecation := b.fieldString? "DeprecationMessage"
    breakingChanges := nonEmpty? (Schema.breakingChanges as)
    apiVersion := b.source.apiVersion?
    attributes := as
    source := some b.snippets
    serviceDirectory := serviceDirectory? b.source.path }

/-- The resource of a registration. -/
def resource (p : Provider) (r : Registration) (s : Source) : Except ExtractionFailure Resource :=
  match r.builder with
  | none => .ok (p.bareResource r s)
  | some f => do
    let b ← p.builder f s
    (p.builtResource r b).mapError .invalid

/-- The resources of registrations, with a warning for each that cannot be resolved. -/
def resources (p : Provider) : List Found → Except ExtractionFailure (List Resource) × List Text
  | [] => (.ok [], [])
  | (r, s) :: rest =>
    match p.resource r s with
    | .ok x =>
      let (xs, ws) := p.resources rest
      (xs.map (x :: ·), ws)
    | .error (.invalid e) => (.error (.invalid e), [])
    | .error e =>
      let (xs, ws) := p.resources rest
      (xs, skipWarning r.typeName e :: ws)

/-- Whether a resource may stand before another: its name is not the later one. -/
def inNameOrder (a b : Resource) : Bool := !Text.lt b.name a.name

/-- The resources of a provider, sorted by name, with the warnings on the way. -/
def extract (p : Provider) : Except ExtractionFailure (List Resource) × List Text :=
  if p.sources.isEmpty then (.error .noSources, [])
  else match registrations p.providerPrefix p.sources with
    | .error e => (.error (.invalid e), [])
    | .ok found =>
      match p.resources found with
      | (.error e, ws) => (.error e, ws)
      | (.ok [], ws) => (.error .nothingFound, ws)
      | (.ok xs, ws) => (.ok (xs.mergeSort inNameOrder), ws)

end Provider

end ProviderCatalog.Schema
