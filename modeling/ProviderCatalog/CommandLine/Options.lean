import ProviderCatalog.Text.Digit
import ProviderCatalog.Text.Search

/-!
# Options of the command line

The command line consists of options only. The beginning of a long option stands for it if it is the
beginning of no other. Of an option given twice the last counts.

## Main definitions

* `longFlags`: the flags; `Options`: what they say.
* `Word`, `Word.ofText`: the words of a command line.
* `Options.read`: the options of a command line.
-/

namespace ProviderCatalog.CommandLine

/-- What an option asks for. -/
inductive Flag where
  | help
  | updates
  | sources
  | schedule
deriving DecidableEq, Repr

/-- The short option. -/
def shortHelp : Text := "-h"

/-- The long options. -/
def longFlags : List (Text × Flag) := [
  ("--help", .help), ("--updates", .updates), ("--sources", .sources), ("--schedule", .schedule)]

/-- How the command line is used. -/
def usage : String :=
  "usage: provider-index-sync [-h] [--updates] [--sources SOURCES] [--schedule]"

/-- The options. -/
structure Options where
  /-- Whether only repositories that are not up to date are synced. -/
  updates : Bool
  /-- The path of the file with the sources. -/
  sources : Option Text
  /-- Whether syncs go on in the background. -/
  schedule : Bool
deriving DecidableEq, Repr

/-- Why a command line is not carried out. -/
inductive Halt where
  | help
  | misuse
deriving DecidableEq, Repr

/-- A word of a command line. -/
inductive Word where
  /-- A long option, with the value that is joined to it by an equals sign, if there is one. -/
  | long (flag : Flag) (value : Option Text)
  /-- Short options behind one hyphen, of which the first asks for help. -/
  | short (others : Text)
  | unknown
  | operand
  /-- Two hyphens alone, behind which there are only operands. -/
  | separator
  /-- The beginning of several options. -/
  | ambiguous
deriving DecidableEq, Repr

/-- Whether a text is a hyphen and a decimal number. -/
def isNegativeNumber (t : Text) : Bool :=
  let t := if t.getLast? = some (.scalar '\n') then t.dropLast else t
  match t with
  | .scalar '-' :: ds =>
    let whole := ds.takeWhile (·.isDigit)
    match ds.drop whole.length with
    | [] => !whole.isEmpty
    | .scalar '.' :: fraction => !fraction.isEmpty && fraction.all (·.isDigit)
    | _ => false
  | _ => false

/-- A text before and behind its first equals sign, if it has one. -/
def cutValue (t : Text) : Text × Option Text :=
  match t.cut? (.scalar '=') with
  | some (name, value) => (name, some value)
  | none => (t, none)

/-- What a word is that is no option. -/
def otherWord (t : Text) : Word :=
  if isNegativeNumber t || t.contains " " then .operand else .unknown

/-- The kind of a word. -/
def Word.ofText (t : Text) : Word :=
  let (name, value) := cutValue t
  if t = "--" then .separator
  else if !t.startsWith "-" || t = "-" then .operand
  else if t = shortHelp then .long .help none
  else if name = shortHelp then .long .help value
  else if t.startsWith "--" then
    match longFlags.lookup name with
    | some flag => .long flag value
    | none =>
      match longFlags.filter fun f => f.1.startsWith name with
      | [] => otherWord t
      | [(_, flag)] => .long flag value
      | _ => .ambiguous
  else if t.startsWith shortHelp then .short (t.drop 2)
  else otherWord t

/-- What short options behind the first come to, which asks for help: an unknown one is passed over
with all behind it. -/
def haltOf : Text → Halt
  | .scalar '-' :: _ | .scalar '=' :: _ => .misuse
  | .scalar 'h' :: rest => haltOf rest
  | _ => .help

namespace Options

/-- The options of a command line without any. -/
def none : Options := ⟨false, .none, false⟩

/-- Reads the words of a command line behind those that gave some options; `foreign` tells whether
there were words that are no options, which only matters at the end. -/
def readFrom (o : Options) (foreign : Bool) : List (Word × Text) → Except Halt Options
  | [] => if foreign then .error .misuse else .ok o
  | (.long .help Option.none, _) :: _ => .error .help
  | (.long .sources Option.none, _) :: (.operand, path) :: rest =>
    readFrom { o with sources := some path } foreign rest
  | (.long .sources (some path), _) :: rest => readFrom { o with sources := some path } foreign rest
  | (.long .updates Option.none, _) :: rest => readFrom { o with updates := true } foreign rest
  | (.long .schedule Option.none, _) :: rest => readFrom { o with schedule := true } foreign rest
  | (.long .., _) :: _ => .error .misuse
  | (.short others, _) :: _ => .error (haltOf others)
  | (.separator, _) :: _ | (.ambiguous, _) :: _ => .error .misuse
  | (.unknown, _) :: rest | (.operand, _) :: rest => readFrom o true rest

/-- The words of a command line up to a separator. -/
def words (ts : List Text) : List (Word × Text) :=
  let all := ts.map fun t => (Word.ofText t, t)
  let before := all.takeWhile (·.1 ≠ .separator)
  before ++ (all.drop before.length).take 1

/-- The options of a command line. -/
def read (ts : List Text) : Except Halt Options :=
  let ws := words ts
  if ws.any (·.1 = .ambiguous) then .error .misuse else readFrom .none false ws

end Options

end ProviderCatalog.CommandLine
