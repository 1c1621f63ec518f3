import ProviderCatalog.Yaml.Fault

/-!
# Places in a document

A place knows what follows it, how many characters precede it, its line, and its column in that
line. Line breaks are the usual ones and the separators of lines and paragraphs; a byte order mark
takes no column.

## Main definitions

* `Cursor`: the places.
* `Cursor.past`, `Cursor.lineBreak?`: places behind characters of the line, or behind a line break.
* `Scan`: reading from a place on, with the elementary readers `peek`, `skip`, `span`, `lineBreak`.
-/

namespace ProviderCatalog.Yaml

/-- A place in a document. -/
structure Cursor where
  rest : List Char
  index : Nat
  line : Nat
  column : Nat
deriving DecidableEq, Repr

/-- The character that stands for the end of the document; no document holds it. -/
def endMark : Char := '\x00'

/-- Whether a character breaks lines. -/
def isBreak (c : Char) : Bool :=
  c == '\n' || c == '\r' || c == '\u0085' || c == '\u2028' || c == '\u2029'

/-- Whether a character breaks lines or ends the document. -/
def endsLine (c : Char) : Bool := isBreak c || c == endMark

/-- Whether a character is a space, breaks lines or ends the document. -/
def endsWord (c : Char) : Bool := endsLine c || c == ' '

/-- Whether a character is a space or a tab, breaks lines or ends the document. -/
def endsToken (c : Char) : Bool := endsWord c || c == '\t'

/-- The mark that can begin a document and takes no column. -/
def byteOrderMark : Char := '\uFEFF'

namespace Cursor

/-- The start of a document. -/
def start (cs : List Char) : Cursor := ⟨cs, 0, 0, 0⟩

/-- The character at a distance. -/
def peek (c : Cursor) (n : Nat) : Char := c.rest.getD n endMark

/-- The place behind some characters of the same line. -/
def past (c : Cursor) (s : List Char) : Cursor :=
  ⟨c.rest.drop s.length, c.index + s.length, c.line,
    c.column + (s.filter (· != byteOrderMark)).length⟩

/-- The place at the start of the next line, after a line break of `n` characters. -/
def nextLine (c : Cursor) (n : Nat) : Cursor := ⟨c.rest.drop n, c.index + n, c.line + 1, 0⟩

/-- The line break at a place with the place behind it. All but the separators count as line
feeds. -/
def lineBreak? (c : Cursor) : Option (Char × Cursor) :=
  match c.rest with
  | '\r' :: '\n' :: _ => some ('\n', c.nextLine 2)
  | x :: _ =>
    if x == '\u2028' || x == '\u2029' then some (x, c.nextLine 1)
    else if isBreak x then some ('\n', c.nextLine 1)
    else none
  | [] => none

/-- Whether three marks that separate documents stand at a place. -/
def atMarks (c : Cursor) (mark : Char) : Bool :=
  c.rest.take 3 == [mark, mark, mark] && endsToken (c.peek 3)

/-- Whether a separator of documents stands at a place. -/
def atSeparator (c : Cursor) : Bool := c.atMarks '-' || c.atMarks '.'

end Cursor

/-- Reading from a place on. -/
abbrev Scan := StateT Cursor (Except Fault)

namespace Scan

/-- The character at a distance. -/
def peek (n : Nat) : Scan Char := return (← get).peek n

/-- The column of the place. -/
def column : Scan Nat := return (← get).column

/-- Gives up. -/
def refuse {α : Type} : Scan α := throw .malformed

/-- Passes over some characters of the line. -/
def skip (n : Nat) : Scan Unit := modify fun c => c.past (c.rest.take n)

/-- Reads the characters of the line as long as they belong to a class. -/
def span (p : Char → Bool) : Scan (List Char) := do
  let s := (← get).rest.takeWhile p
  modify (·.past s)
  return s

/-- Passes over spaces. -/
def spaces : Scan Unit := do let _ ← span (· == ' ')

/-- Passes over a comment, if there is one. -/
def comment : Scan Unit := do
  if (← peek 0) == '#' then let _ ← span (!endsLine ·)

/-- Reads a line break, if there is one. -/
def lineBreak : Scan (Option Char) := do
  match (← get).lineBreak? with
  | none => return none
  | some (x, c) =>
    set c
    return some x

/-- Requires the next character to be in a class. -/
def expect (p : Char → Bool) : Scan Unit := do
  if !p (← peek 0) then refuse

/-- Passes over the rest of a line that holds no more than a comment. -/
def restOfLine : Scan Unit := do
  spaces
  comment
  expect endsLine
  let _ ← lineBreak

/-- A number of repetitions that no reader exceeds from the place on. -/
def bound : Scan Nat := return (← get).rest.length + 1

end Scan

end ProviderCatalog.Yaml
