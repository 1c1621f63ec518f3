import ProviderCatalog.Calendar.Layout
import ProviderCatalog.Text.Case
import ProviderCatalog.Validation.Record

/-!
# Releases and their headings

A release has a version, the tag of that version, perhaps a date, and sections of entries in the
order of the document.

A heading names a version, bare or in brackets, and may give a date in parentheses. The version is
freed of blanks and of a leading letter `v`; a heading of unreleased changes names no version.

## Main definitions

* `Section`, `Release`: releases with their sections.
* `Release.check`: a release read from a datum.
* `normalizeVersion`, `normalizeTag`: versions and tags in normal form.
* `normalizeDate`, `headingDate`: dates in normal form, alone or found in a heading.
* `Release.ofHeading?`: the release that a heading opens.
-/

namespace ProviderCatalog.Changelog

/-! ### Releases -/

/-- A named section of a release. -/
structure Section where
  name : Text
  entries : List Text
deriving DecidableEq, Repr

/-- A release of a changelog. -/
structure Release where
  /-- The version, without a leading letter. -/
  version : Text
  /-- The version with a leading `v`. -/
  tag : Text
  /-- The date as year, month and day. -/
  date : Option Text
  sections : List Section
deriving DecidableEq, Repr

/-- Reads a section from a datum. -/
def Section.check : Datum → Checked Section :=
  .record fun d => Section.mk <$> .required d "name" .text
    <*> .withDefault d "entries" [] (.list .text)

/-- A section as a datum. -/
def Section.toDatum (s : Section) : Datum :=
  .ofFields [("name", .text s.name), ("entries", .ofTexts s.entries)]

/-- Reads a release from a datum. -/
def Release.check : Datum → Checked Release :=
  .record fun d => Release.mk <$> .required d "version" .text <*> .required d "tag" .text
    <*> .optional d "release_date" .text
    <*> .withDefault d "sections" [] (.list Section.check)

/-- A release as a datum. -/
def Release.toDatum (r : Release) : Datum :=
  .ofFields [("version", .text r.version), ("tag", .text r.tag), ("release_date", .ofText? r.date),
    ("sections", .list (r.sections.map Section.toDatum))]

/-! ### Headings -/

/-- Whether a code point is the letter `v` in either case. -/
def isVersionLetter (p : CodePoint) : Bool := p == .scalar 'v' || p == .scalar 'V'

/-- The version in normal form, empty for unreleased changes. -/
def normalizeVersion (raw : Text) : Text :=
  let t := match raw.trim with
    | p :: rest => if isVersionLetter p then rest else p :: rest
    | [] => []
  if t.lower = ("unreleased" : Text) then [] else t

/-- The tag under which a name is looked up: in lower case and with a leading `v`. -/
def normalizeTag (raw : Text) : Text :=
  match raw.trim with
  | [] => []
  | p :: rest => Text.lower (if isVersionLetter p then p :: rest else .scalar 'v' :: p :: rest)

/-- The written form of a date in any layout, or nothing if the text is no date. -/
def normalizeDate (raw : Text) : Option Text := (Date.read? raw.trim).map Date.toText

/-- The date between the last opening and the last closing parenthesis of a heading. -/
def headingDate (heading : Text) : Option Text :=
  match heading.lastIndexOf? (.scalar '('), heading.lastIndexOf? (.scalar ')') with
  | some i, some j =>
    if j ≤ i then none
    else
      let candidate := Text.trim ((heading.take j).drop (i + 1))
      if candidate.isEmpty || candidate.lower == "unreleased" then none
      else normalizeDate candidate
  | _, _ => none

/-- The part of a heading that names the version: what stands in leading brackets, or the first
word. A bracket that is not closed, or that holds nothing before it, leaves the whole heading. -/
def headingVersion (heading : Text) : Text :=
  match heading with
  | .scalar '[' :: rest =>
    match rest.idxOf? (.scalar ']') with
    | some i => rest.take i
    | none => heading
  | _ => heading.firstWord

/-- The release without sections that a heading opens. -/
def Release.ofHeading? (line : Text) : Option Release :=
  let heading := (line.dropPrefix "##").trim
  if heading.isEmpty then none
  else
    let version := normalizeVersion (headingVersion heading)
    if version.isEmpty then none
    else some ⟨version, .scalar 'v' :: version, headingDate heading, []⟩

end ProviderCatalog.Changelog
