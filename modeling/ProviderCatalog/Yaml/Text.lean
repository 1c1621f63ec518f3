import ProviderCatalog.Yaml.Cursor

/-!
# Texts of scalars

A scalar is written plainly, between quotes, or as a block of indented lines. Single line breaks in
a plain or quoted scalar, and in a folded block, count as spaces; each further one counts.

## Main definitions

* `plainText`: plain scalars.
* `quotedText`: scalars between quotes, with the escapes of double quotes.
* `blockText`: literal and folded blocks.
-/

namespace ProviderCatalog.Yaml

open Scan

/-! ### Plain scalars -/

/-- Whether a character encloses or separates items of flow collections. -/
def isFlowMark (c : Char) : Bool :=
  c == ',' || c == '[' || c == ']' || c == '\x7b' || c == '\x7d'

/-- Whether a plain scalar ends at the character before `next`. -/
def endsPlain (inFlow : Bool) (c next : Char) : Bool :=
  endsToken c
    || (c == ':' && (endsToken next || (inFlow && isFlowMark next)))
    || (inFlow && (c == '?' || isFlowMark c))

/-- The characters of a plain scalar up to a blank or an end. -/
def plainRun (inFlow : Bool) : List Char → List Char
  | [] => []
  | c :: cs => if endsPlain inFlow c (cs.headD endMark) then [] else c :: plainRun inFlow cs

/-- The line breaks after the first between two lines of a plain scalar; nothing if a separator of
documents follows one of them. -/
def plainBreaks : Nat → Scan (Option (List Char))
  | 0 => return some []
  | n + 1 => do
    spaces
    match ← lineBreak with
    | none => return some []
    | some x =>
      if (← get).atSeparator then return none
      return (← plainBreaks n).map (x :: ·)

/-- What stands for a line break and the line breaks behind it. -/
def folded (first : Char) (others : List Char) : List Char :=
  if first != '\n' then first :: others
  else if others.isEmpty then [' ']
  else others

/-- The blanks inside a plain scalar, which are empty at its end, and whether they hold a line
break. -/
def plainBlanks : Scan (List Char × Bool) := do
  let s ← span (· == ' ')
  match ← lineBreak with
  | none => return (s, false)
  | some x =>
    if (← get).atSeparator then return ([], true)
    match ← plainBreaks (← bound) with
    | none => return ([], true)
    | some xs => return (folded x xs, true)

/-- A plain scalar after some text and the blanks behind it, with the last answer about line
breaks. -/
def plainFrom (inFlow : Bool) (indent : Int) (afterBreak : Bool) (before : List Char) :
    Nat → Scan (List Char × Bool)
  | 0 => return ([], afterBreak)
  | n + 1 => do
    if (← peek 0) == '#' then return ([], afterBreak)
    let s := plainRun inFlow (← get).rest
    if s.isEmpty then return ([], afterBreak)
    modify (·.past s)
    let (blanks, broken) ← plainBlanks
    let isLast := blanks.isEmpty || (← peek 0) == '#' || (!inFlow && ((← column) : Int) < indent)
    if isLast then return (before ++ s, broken)
    let (more, broken) ← plainFrom inFlow indent broken blanks n
    return (before ++ s ++ more, broken)

/-- A plain scalar in a block of the given indentation, and whether a line break ends it. -/
def plainText (inFlow : Bool) (indent : Int) : Scan (List Char × Bool) := do
  plainFrom inFlow (indent + 1) false [] (← bound)

/-! ### Quoted scalars -/

/-- The characters that a backslash and a letter stand for. -/
def escapes : List (Char × Char) := [
  ('0', '\x00'), ('a', '\x07'), ('b', '\x08'), ('t', '\t'), ('\t', '\t'), ('n', '\n'),
  ('v', '\x0B'), ('f', '\x0C'), ('r', '\r'), ('e', '\x1B'), (' ', ' '), ('"', '"'), ('\\', '\\'),
  ('/', '/'), ('N', '\u0085'), ('_', '\u00A0'), ('L', '\u2028'), ('P', '\u2029')]

/-- The letters of escapes by number, with the count of digits. -/
def numberedEscapes : List (Char × Nat) := [('x', 2), ('u', 4), ('U', 8)]

/-- The number that a hexadecimal digit stands for. -/
def hexValue? (c : Char) : Option Nat :=
  if '0' ≤ c && c ≤ '9' then some (c.toNat - 0x30)
  else if 'a' ≤ c && c ≤ 'f' then some (c.toNat - 0x57)
  else if 'A' ≤ c && c ≤ 'F' then some (c.toNat - 0x37)
  else none

/-- Reads a number of hexadecimal digits. -/
def hexNumber (count : Nat) : Scan Nat := do
  let ds := (← get).rest.take count
  match ds.mapM hexValue? with
  | none => refuse
  | some ns =>
    if ns.length < count then refuse
    skip count
    return ns.foldl (fun n d => 16 * n + d) 0

/-- The line breaks that follow a line break between quotes. -/
def quotedBreaks : Nat → Scan (List Char)
  | 0 => return []
  | n + 1 => do
    if (← get).atSeparator then refuse
    let _ ← span fun c => c == ' ' || c == '\t'
    match ← lineBreak with
    | none => return []
    | some x => return x :: (← quotedBreaks n)

/-- The blanks between quotes. -/
def quotedBlanks : Scan (List Char) := do
  let s ← span fun c => c == ' ' || c == '\t'
  match ← lineBreak with
  | some x => return folded x (← quotedBreaks (← bound))
  | none =>
    if (← peek 0) == endMark then refuse
    return s

/-- What an escape stands for, the backslash left out. -/
def escape : Scan Text := do
  let c ← peek 0
  match escapes.lookup c with
  | some d =>
    skip 1
    return [.scalar d]
  | none =>
    match numberedEscapes.lookup c with
    | some count =>
      skip 1
      let n ← hexNumber count
      match CodePoint.ofNat? n with
      | some p => return [p]
      | none => throw (.noCodePoint n)
    | none =>
      match ← lineBreak with
      | some _ => return Text.ofChars (← quotedBreaks (← bound))
      | none => refuse

/-- A quoted scalar behind its first quote, up to the second. -/
def quotedFrom (double : Bool) : Nat → Scan Text
  | 0 => refuse
  | n + 1 => do
    let s ← span fun c => !endsToken c && c != '\'' && c != '"' && c != '\\'
    let c ← peek 0
    let next ← peek 1
    let more ←
      if c == '\'' && !double && next == '\'' then
        skip 2
        pure (some (Text.ofChars ['\'']))
      else if c == (if double then '"' else '\'') then
        skip 1
        pure none
      else if c == '\\' && double then
        skip 1
        pure (some (← escape))
      else if c == '\'' || c == '"' || c == '\\' then
        skip 1
        pure (some [.scalar c])
      else pure (some (Text.ofChars (← quotedBlanks)))
    match more with
    | none => return Text.ofChars s
    | some t => return Text.ofChars s ++ t ++ (← quotedFrom double n)

/-- A quoted scalar. -/
def quotedText (double : Bool) : Scan Text := do
  skip 1
  quotedFrom double (← bound)

/-! ### Blocks -/

/-- What becomes of the line breaks at the end of a block. -/
inductive Chomping where
  | strip
  | clip
  | keep
deriving DecidableEq

/-- Reads how the end of a block is treated. -/
def chomping : Scan (Option Chomping) := do
  match ← peek 0 with
  | '+' =>
    skip 1
    return some .keep
  | '-' =>
    skip 1
    return some .strip
  | _ => return none

/-- Reads how far a block is indented. -/
def increment : Scan (Option Nat) := do
  let c ← peek 0
  if c.isDigit then
    if c == '0' then refuse
    skip 1
    return some (c.toNat - 0x30)
  else return none

/-- Reads the two in either order. -/
def blockHeader : Scan (Chomping × Option Nat) := do
  match ← chomping with
  | some ch => return (ch, ← increment)
  | none =>
    let i ← increment
    let ch ← if i.isSome then chomping else pure none
    return (ch.getD .clip, i)

/-- The empty lines at the start of a block, and the largest indentation among them. -/
def leadingLines (deepest : Nat) : Nat → Scan (List Char × Nat)
  | 0 => return ([], deepest)
  | n + 1 => do
    spaces
    let deepest := max deepest (← column)
    match ← lineBreak with
    | none => return ([], deepest)
    | some x =>
      let (xs, deepest) ← leadingLines deepest n
      return (x :: xs, deepest)

/-- Passes over spaces as far as a column. -/
def spacesUpTo (indent : Nat) : Scan Unit := do
  let c ← get
  let s := (c.rest.take (indent - c.column)).takeWhile (· == ' ')
  set (c.past s)

/-- The empty lines between the lines of a block. -/
def blockBreaks (indent : Nat) : Nat → Scan (List Char)
  | 0 => return []
  | n + 1 => do
    spacesUpTo indent
    match ← lineBreak with
    | none => return []
    | some x => return x :: (← blockBreaks indent n)

/-- Whether a character is a space or a tab. -/
def isSpace (c : Char) : Bool := c == ' ' || c == '\t'

/-- What joins two lines of a block with a line break between them and empty lines behind it. -/
def joint (fold : Bool) (first : Option Char) (afterText beforeText : Bool) (empty : List Char) :
    List Char :=
  if fold && first == some '\n' && afterText && beforeText then
    if empty.isEmpty then [' '] else []
  else first.toList

/-- The lines of a block behind some empty lines. -/
def blockLines (fold : Bool) (end? : Chomping) (indent : Nat) (empty : List Char) :
    Nat → Scan (List Char)
  | 0 => return []
  | n + 1 => do
    let afterText := !isSpace (← peek 0)
    let s ← span (!endsLine ·)
    let first ← lineBreak
    let next ← blockBreaks indent (← bound)
    if (← column) == indent && (← peek 0) != endMark then
      let j := joint fold first afterText (!isSpace (← peek 0)) next
      return empty ++ s ++ j ++ (← blockLines fold end? indent next n)
    else
      return empty ++ s ++ match end? with
        | .strip => []
        | .clip => first.toList
        | .keep => first.toList ++ next

/-- A block in a block of the given indentation. -/
def blockText (fold : Bool) (indent : Int) : Scan (List Char) := do
  skip 1
  let (end?, increment) ← blockHeader
  expect endsWord
  restOfLine
  let least := (max (indent + 1) 1).toNat
  let (empty, indent) ← match increment with
    | none => do
      let (empty, deepest) ← leadingLines 0 (← bound)
      pure (empty, max least deepest)
    | some i => do
      let indent := least + i - 1
      pure (← blockBreaks indent (← bound), indent)
  if (← column) == indent && (← peek 0) != endMark then
    blockLines fold end? indent empty (← bound)
  else
    return match end? with
      | .keep => empty
      | _ => []

end ProviderCatalog.Yaml
