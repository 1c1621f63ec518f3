import ProviderCatalog.Go.Source
import ProviderCatalog.Schema.Naming

/-!
# Services of a provider

A service is described by a registration file: parameterless functions of fixed names return its
name, its categories on the provider's site and its label.

## Main definitions

* `Service`, `Service.check`: services, also read from a datum.
* `Service.ofSource?`: the service that a source describes.
* `services`: the services that sources describe.
-/

namespace ProviderCatalog.Schema

open Go (Node Source)

/-- A service of a provider. -/
structure Service where
  name : Text
  filePath : Text
  /-- The directory by which resources are linked to the service. -/
  directory : Option Text
  categories : List Text
  label : Option Text
deriving DecidableEq, Repr

/-- The name of a service in messages. -/
def Service.recordName : String := "ProviderService"

/-- Reads a service from a datum. -/
def Service.check : Datum → Checked Service :=
  .record fun d => Service.mk <$> .required d "name" .nonEmptyText
    <*> .required d "file_path" .text <*> .optional d "directory" .text
    <*> .withDefault d "website_categories" [] (.list .text)
    <*> .optional d "github_label" .text

/-- A service as a datum. -/
def Service.toDatum (s : Service) : Datum :=
  .ofFields [("name", .text s.name), ("file_path", .text s.filePath),
    ("directory", .ofText? s.directory), ("website_categories", .ofTexts s.categories),
    ("github_label", .ofText? s.label)]

/-- The first declaration of a name without parameters, methods before functions. -/
def accessor? (s : Source) (name : Text) : Option Node :=
  (s.methods ++ s.functions.map (·.2)).find? fun d =>
    d.declaredName == name && d.parameterCount == 0

/-- The first value that the outer statements of a function return. -/
def firstReturned? (declaration : Node) : Option Node :=
  (declaration.bodyStatements.filter (·.kind == .returnStatement)).findSome? fun s =>
    s.returnValues.head?

/-- The string that an accessor returns. -/
def returnedString? (s : Source) (name : Text) : Option Text :=
  ((accessor? s name).bind firstReturned?).bind Node.stringValue?

/-- The strings in the list that an accessor returns, empty ones left out. -/
def returnedStrings (s : Source) (name : Text) : List Text :=
  match ((accessor? s name).bind firstReturned?).bind Node.literalBody? with
  | none => []
  | some b => (b.listElements.filterMap Node.stringValue?).filter fun t => !t.isEmpty

/-- The name of the files that register services. -/
def registrationFile : Text := "registration.go"

/-- The service that a source describes: a registration file whose name accessor returns a string
that is not empty. -/
def Service.ofSource? (s : Source) : Except Invalid (Option Service) :=
  if baseName s.path != registrationFile then .ok none
  else match returnedString? s "Name" with
    | some (p :: t) =>
      (((Checked.nonEmptyText (p :: t)).within (.field "name")).map fun n =>
        some ⟨n, s.path, serviceDirectory? s.path, returnedStrings s "WebsiteCategories",
          returnedString? s "AssociatedGitHubLabel"⟩).asRecord recordName
    | _ => .ok none

/-- The services that sources describe, in order. -/
def services (sources : List Source) : Except Invalid (List Service) := do
  return (← sources.mapM Service.ofSource?).filterMap id

end ProviderCatalog.Schema
