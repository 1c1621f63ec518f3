import ProviderCatalog.Schema.Attribute
import ProviderCatalog.Schema.Naming

/-!
# Resources

A resource is a definition of the provider with everything that its builder says about it, and the
parts of the source that say it.

## Main definitions

* `SnippetBundle`, `SnippetBundle.check`: the parts of the source of a builder.
* `Resource`, `Resource.check`: resources.
-/

namespace ProviderCatalog.Schema

/-- The parts of the source of a builder. -/
structure SnippetBundle where
  functionName : Text
  filePath : Text
  function : Option Text
  schema : Option Text
  customizeDiff : Option Text
  timeouts : Option Text
  stateUpgraders : Option Text
  importer : Option Text
deriving DecidableEq, Repr

/-- Reads the parts of a source from a datum. -/
def SnippetBundle.check : Datum → Checked SnippetBundle :=
  .record fun d => SnippetBundle.mk <$> .required d "function_name" .text
    <*> .required d "file_path" .text <*> .optional d "function_snippet" .text
    <*> .optional d "schema_snippet" .text <*> .optional d "customize_diff_snippet" .text
    <*> .optional d "timeouts_snippet" .text <*> .optional d "state_upgraders_snippet" .text
    <*> .optional d "importer_snippet" .text

/-- The parts of a source as a datum. -/
def SnippetBundle.toDatum (s : SnippetBundle) : Datum :=
  .ofFields [("function_name", .text s.functionName), ("file_path", .text s.filePath),
    ("function_snippet", .ofText? s.function), ("schema_snippet", .ofText? s.schema),
    ("customize_diff_snippet", .ofText? s.customizeDiff),
    ("timeouts_snippet", .ofText? s.timeouts),
    ("state_upgraders_snippet", .ofText? s.stateUpgraders),
    ("importer_snippet", .ofText? s.importer)]

/-- A definition of the provider. -/
structure Resource where
  name : Text
  kind : ResourceKind
  displayName : Option Text
  filePath : Option Text
  description : Option Text
  deprecation : Option Text
  breakingChanges : Option Text
  apiVersion : Option Text
  attributes : List Attribute
  source : Option SnippetBundle
  /-- The directory by which the resource is linked to its service. -/
  serviceDirectory : Option Text
deriving DecidableEq, Repr

/-- The name of a resource in messages. -/
def Resource.recordName : String := "ParsedProviderResource"

/-- Reads a resource from a datum. -/
def Resource.check : Datum → Checked Resource :=
  .record fun d => Resource.mk <$> .required d "name" .nonEmptyText
    <*> .withDefault d "kind" .resource (.textOneOf ResourceKind.byName)
    <*> .optional d "display_name" .text <*> .optional d "file_path" .text
    <*> .optional d "description" .text <*> .optional d "deprecation_message" .text
    <*> .optional d "breaking_changes" .text <*> .optional d "api_version" .text
    <*> .withDefault d "attributes" [] (.list Attribute.check)
    <*> .optional d "source" SnippetBundle.check <*> .optional d "service_dir" .text

/-- A definition as a datum, with its attributes in some form. -/
def Resource.toDatumWith (form : Attribute → Datum) (r : Resource) : Datum :=
  .ofFields [("name", .text r.name), ("kind", .text r.kind.toText),
    ("display_name", .ofText? r.displayName), ("file_path", .ofText? r.filePath),
    ("description", .ofText? r.description), ("deprecation_message", .ofText? r.deprecation),
    ("breaking_changes", .ofText? r.breakingChanges), ("api_version", .ofText? r.apiVersion),
    ("attributes", .list (r.attributes.map form)),
    ("source", (r.source.map SnippetBundle.toDatum).getD .null),
    ("service_dir", .ofText? r.serviceDirectory)]

/-- A definition as a datum. -/
def Resource.toDatum (r : Resource) : Datum := r.toDatumWith Attribute.toDatum

/-- A definition as a datum, with its attributes in their brief form. -/
def Resource.toBriefDatum (r : Resource) : Datum := r.toDatumWith Attribute.toBriefDatum

end ProviderCatalog.Schema
