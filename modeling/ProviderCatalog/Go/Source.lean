import ProviderCatalog.Go.Grammar.File
import ProviderCatalog.Go.Function
import ProviderCatalog.Repository.File
import ProviderCatalog.Text.Digit
import ProviderCatalog.Text.Search

/-!
# Go sources of a repository

A source is a file of a repository with its syntax tree and an index of the functions, methods and
imports at its top level. Of several functions with one name the first counts.

## Main definitions

* `Source`: the sources.
* `SourceError`: why a file is no source.
* `Source.ofFile`: the source that a file is.
* `Source.apiVersion?`: the interface version that the imports mention.
-/

namespace ProviderCatalog.Go

/-- A file with its syntax tree and the index of its top level. -/
structure Source where
  path : Text
  root : Node
  /-- The functions by name, in the order of their first declarations. -/
  functions : List (Text × Node)
  methods : List Node
  imports : List Text

/-- Why a file is no source. -/
inductive SourceError where
  /-- The content has no syntax tree. -/
  | syntaxError (path : Text)
  /-- The content cannot be encoded. -/
  | notUnicode

/-- The message of a file without a syntax tree. -/
def syntaxErrorMessage (path : Text) : Text := path ++ ": syntax error"

/-- The functions with one more at the end, unless its name is taken. -/
def addFunction (functions : List (Text × Node)) (f : Node) : List (Text × Node) :=
  let n := f.declaredName
  if functions.any (·.1 == n) then functions else functions ++ [(n, f)]

/-- Whether a code point delimits a string literal. -/
def isStringDelimiter (p : CodePoint) : Bool := p == .scalar '"' || p == .scalar '\x60'

/-- The path that an import names. -/
def importPath (path : Node) : Text :=
  match path.stringValue? with
  | some (p :: t) => p :: t
  | _ => Text.dropEnds isStringDelimiter path.text

/-- The paths of a declaration of imports. -/
def importPaths (declaration : Node) : List Text :=
  (declaration.walk.filter (·.kind == .importSpec)).filterMap fun s =>
    (s.child? .path).map importPath

namespace Source

/-- The index of a syntax tree. -/
def ofTree (path : Text) (root : Node) : Source where
  path := path
  root := root
  functions := (root.namedChildren.filter (·.kind == .functionDeclaration)).foldl addFunction []
  methods := root.namedChildren.filter (·.kind == .methodDeclaration)
  imports := (root.namedChildren.filter (·.kind == .importDeclaration)).flatMap importPaths

/-- The source that a path and a content make. -/
def ofContent (path content : Text) : Except SourceError Source :=
  match content.toChars? with
  | none => .error .notUnicode
  | some cs =>
    match parse? cs with
    | none => .error (.syntaxError path)
    | some root => .ok (ofTree path root)

/-- The source that a file is. -/
def ofFile (f : RepositoryFile) : Except SourceError Source := ofContent f.path f.content

/-- The function with a name. -/
def function? (s : Source) (name : Text) : Option Node := s.functions.lookup name

/-- Whether digits, four, two and two, with hyphens between them make up a text, which one line feed
may follow. -/
def isVersionDate (t : Text) : Bool :=
  let day := t.drop 8
  (t.take 4).length == 4 && (t.take 4).all CodePoint.isDigit && (t.drop 4).head? == some (.scalar '-')
    && ((t.drop 5).take 2).length == 2 && ((t.drop 5).take 2).all CodePoint.isDigit
    && (t.drop 7).head? == some (.scalar '-') && (day.take 2).length == 2
    && (day.take 2).all CodePoint.isDigit
    && (day.length == 2 || day.drop 2 == [.scalar '\n'])

/-- The part of an import path that marks a resource manager. -/
def managerMarker : Text := "go-azure-sdk/resource-manager"

/-- The first dated segment of an import of a resource manager. -/
def apiVersion? (s : Source) : Option Text :=
  ((s.imports.filter (·.contains managerMarker)).flatMap (Text.splitOn (.scalar '/'))).find?
    isVersionDate

end Source

end ProviderCatalog.Go
