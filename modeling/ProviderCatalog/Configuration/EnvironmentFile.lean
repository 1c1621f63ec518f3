import ProviderCatalog.Text.Blank
import ProviderCatalog.Text.Search

/-!
# Environment files

An environment file sets variables, one a line: a name, an equals sign and a value. A value is
written plainly, up to a comment, or between quotes, with a few escapes and possibly over several
lines. A line that sets nothing well is passed over. Values can refer to variables of the file
and of the environment.

## Main definitions

* `Binding`, `bindings`: the variables that a text sets.
* `substituted`: a value with its references replaced.
* `EnvironmentFile.read`: the variables of a file with their values.
-/

namespace ProviderCatalog.Configuration.EnvironmentFile

/-- A variable that is set, or named without a value. -/
abbrev Binding := Text × Option Text

/-- Whether a code point breaks lines. -/
def breaksLine (p : CodePoint) : Bool := p = .scalar '\n' || p = .scalar '\r'

/-- Whether a code point is blank and does not break lines. -/
def isSpace (p : CodePoint) : Bool := p.isBlank && !breaksLine p

/-- Whether a code point can stand in a name without quotes. -/
def isNamePart (p : CodePoint) : Bool :=
  !p.isBlank && p ≠ .scalar '=' && p ≠ .scalar '#'

/-- What follows the word for exported variables and spaces behind it, if they are there. -/
def withoutExport (t : Text) : Text :=
  match t.dropPrefix? "export" with
  | some rest => if rest.head?.any isSpace then rest.dropWhile isSpace else t
  | none => t

/-- The name at the front, which is absent before a comment; nothing if there is no name. -/
def name? (t : Text) : Option (Option Text × Text) :=
  match t with
  | .scalar '#' :: _ => some (none, t)
  | .scalar '\'' :: rest =>
    let name := rest.takeWhile (· ≠ .scalar '\'')
    match name, rest.drop name.length with
    | _ :: _, _ :: more => some (some name, more)
    | _, _ => none
  | _ =>
    let name := t.takeWhile isNamePart
    if name.isEmpty then none else some (some name, t.dropWhile isNamePart)

/-- The position of the quote that ends a quoted value: the first one without a backslash in front,
or else the last one; `escaped` is the position of the last quote behind a backslash. -/
def closing? (quote : CodePoint) (position : Nat) (escaped : Option Nat) : Text → Option Nat
  | [] => escaped
  | .scalar '\\' :: p :: rest =>
    if p = quote then closing? quote (position + 2) (some (position + 1)) rest
    else closing? quote (position + 1) escaped (p :: rest)
  | p :: rest =>
    if p = quote then some position else closing? quote (position + 1) escaped rest

/-- The characters that a backslash and a character stand for between double quotes. -/
def escapes : List (Char × Char) := [
  ('\\', '\\'), ('\'', '\''), ('"', '"'), ('a', '\x07'), ('b', '\x08'), ('f', '\x0C'),
  ('n', '\n'), ('r', '\r'), ('t', '\t'), ('v', '\x0B')]

/-- The escapes between the given quotes. -/
def escapesIn (quote : Char) : List (Char × Char) :=
  if quote = '"' then escapes else escapes.take 2

/-- A value with its escapes replaced. -/
def unescaped (known : List (Char × Char)) : Text → Text
  | .scalar '\\' :: .scalar c :: rest =>
    match known.lookup c with
    | some d => .scalar d :: unescaped known rest
    | none => .scalar '\\' :: unescaped known (.scalar c :: rest)
  | p :: rest => p :: unescaped known rest
  | [] => []

/-- A quoted value behind its first quote. -/
def quotedValue? (quote : Char) (t : Text) : Option (Text × Text) :=
  (closing? (.scalar quote) 0 none t).map fun n =>
    (unescaped (escapesIn quote) (t.take n), t.drop (n + 1))

/-- The part of a line before a comment that follows a blank. -/
def beforeComment (line : Text) : Text :=
  match line with
  | [] => []
  | p :: rest =>
    if p.isBlank && (rest.dropWhile CodePoint.isBlank).head? = some (.scalar '#') then []
    else p :: beforeComment rest

/-- The value at the front. -/
def value? (t : Text) : Option (Text × Text) :=
  match t with
  | .scalar '\'' :: rest => quotedValue? '\'' rest
  | .scalar '"' :: rest => quotedValue? '"' rest
  | _ =>
    let line := t.takeWhile (!breaksLine ·)
    some ((beforeComment line).trimRight, t.drop line.length)

/-- What follows a comment, if there is one. -/
def withoutComment (t : Text) : Text :=
  match t.dropWhile isSpace with
  | .scalar '#' :: rest => rest.dropWhile (!breaksLine ·)
  | _ => t

/-- What follows the end of a line, if nothing but spaces comes before it. -/
def lineEnd? (t : Text) : Option Text :=
  match t.dropWhile isSpace with
  | [] => some []
  | .scalar '\r' :: .scalar '\n' :: rest => some rest
  | p :: rest => if breaksLine p then some rest else none

/-- What follows the line. -/
def behindLine (t : Text) : Text := (t.dropWhile (!breaksLine ·)).drop 1

/-- One binding at the front, blanks before it apart, with what follows its line. A binding that is
not well formed is left out, with the rest of the line where the trouble was found. -/
def binding (t : Text) : Option Binding × Text :=
  match name? (withoutExport t) with
  | none => (none, behindLine (withoutExport t))
  | some (name, afterName) =>
    let atMark := afterName.dropWhile isSpace
    let found : Option (Option Text × Text) := match atMark with
      | .scalar '=' :: rest => (value? (rest.dropWhile isSpace)).map fun (v, more) => (some v, more)
      | _ => some (none, atMark)
    match found with
    | none => (none, behindLine ((atMark.drop 1).dropWhile isSpace))
    | some (v, more) =>
      match lineEnd? (withoutComment more) with
      | some rest => (name.map (·, v), rest)
      | none => (none, behindLine (withoutComment more))

/-- The bindings of a text of which at most `n` are read. -/
def bindingsFrom : Nat → Text → List Binding
  | 0, _ => []
  | n + 1, t =>
    match t.dropWhile CodePoint.isBlank with
    | [] => []
    | p :: rest =>
      let (b, more) := binding (p :: rest)
      b.toList ++ bindingsFrom n more

/-- The bindings of a text. -/
def bindings (t : Text) : List Binding := bindingsFrom t.length t

/-! ### References -/

/-- What a reference names, what it stands for where the variable is not set, and the text behind
it, if the text begins with a reference. -/
def reference? (t : Text) : Option (Text × Text × Text) :=
  let brace : CodePoint := .scalar '\x7d'
  match t with
  | .scalar '$' :: .scalar '\x7b' :: rest =>
    let name := rest.takeWhile fun p => p ≠ brace && p ≠ .scalar ':'
    match rest.drop name.length with
    | .scalar ':' :: .scalar '-' :: more =>
      let default := more.takeWhile (· ≠ brace)
      match more.drop default.length with
      | _ :: after => some (name, default, after)
      | [] => none
    | .scalar ':' :: _ | [] => none
    | _ :: after => some (name, [], after)
  | _ => none

/-- A value with its references replaced, of which there are at most `n`. -/
def substitutedFrom (values : List Binding) : Nat → Text → Text
  | 0, t => t
  | _ + 1, [] => []
  | n + 1, p :: t =>
    match reference? (p :: t) with
    | none => p :: substitutedFrom values n t
    | some (name, default, after) =>
      let value := match values.lookup name with
        | some v => v.getD []
        | none => default
      value ++ substitutedFrom values n after

/-- A value with its references replaced. -/
def substituted (values : List Binding) (t : Text) : Text :=
  substitutedFrom values t.length t

/-- The bindings with the references in their values replaced, each by the last value set before it,
or else by the environment's; `found` holds the bindings so far, the last first. -/
def resolved (environment found : List Binding) : List Binding → List Binding
  | [] => found.reverse
  | (name, v) :: rest =>
    resolved environment ((name, v.map (substituted (found ++ environment))) :: found) rest

/-- Bindings with one of them set: in place if the name is there, else at the end. -/
def put (name : Text) (value : Option Text) : List Binding → List Binding
  | [] => [(name, value)]
  | (n, v) :: rest => if n = name then (name, value) :: rest else (n, v) :: put name value rest

/-- The variables of a file, with the last value of each in the place of its first. -/
def read (environment : List (Text × Text)) (t : Text) : List Binding :=
  let known := environment.map fun (k, v) => (k, some v)
  (resolved known [] (bindings t)).foldl (fun bs b => put b.1 b.2 bs) []

end ProviderCatalog.Configuration.EnvironmentFile
