import ProviderCatalog.Changelog.Heading
import ProviderCatalog.Changelog.Line

/-!
# Reading a changelog

A changelog is read line by line. A release heading closes the release before it, and reading ends
as soon as the closed releases reach the limit; the lines below a heading that names no version are
passed over. A bullet before the first section of its release opens a section of its own.

## Main definitions

* `Release.addLine`: a release with one more of its lines.
* `readLines`: the releases of the remaining lines.
* `read`: the releases of a changelog.
-/

namespace ProviderCatalog.Changelog

/-- The number of releases kept when no limit is given. -/
def defaultLimit : Int := 40

/-- The section of bullets that stand under no section. -/
def otherSection : Text := "Other"

/-- The sections with one entry more in the last of them. -/
def addEntry (entry : Text) : List Section → List Section
  | [] => [⟨otherSection, [entry]⟩]
  | [s] => [{ s with entries := s.entries ++ [entry] }]
  | s :: rest => s :: addEntry entry rest

/-- The release with a line of its block. -/
def Release.addLine (r : Release) (line : Text) : Release :=
  if opensSection line then { r with sections := r.sections ++ [⟨sectionName line, []⟩] }
  else if isBullet line then
    let entry := bulletText line
    if !entry.isEmpty then { r with sections := addEntry entry r.sections }
    else if r.sections.isEmpty then { r with sections := [⟨otherSection, []⟩] }
    else r
  else r

/-- Whether a line is a release heading. -/
def isReleaseHeading (line : Text) : Bool := line.startsWith "## "

/-- The releases of the remaining lines, after `done` releases that are closed, the last one
first, and under the open release `current`. -/
def readLines (limit : Int) (done : List Release) (current : Option Release) :
    List Text → List Release
  | [] =>
    match current with
    | some r => if (done.length : Int) < limit then (r :: done).reverse else done.reverse
    | none => done.reverse
  | raw :: rest =>
    let line := raw.trim
    if isReleaseHeading line then
      match current with
      | some r =>
        if limit ≤ (done.length : Int) + 1 then (r :: done).reverse
        else readLines limit (r :: done) (Release.ofHeading? line) rest
      | none => readLines limit done (Release.ofHeading? line) rest
    else readLines limit done (current.map (·.addLine line)) rest

/-- The releases of a changelog, the newest first as they stand in it. -/
def read (limit : Int) (t : Text) : List Release :=
  (readLines limit [] none t.lines).filter fun r => !r.version.isEmpty && !r.tag.isEmpty

end ProviderCatalog.Changelog
