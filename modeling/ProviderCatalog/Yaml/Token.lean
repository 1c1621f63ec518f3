import ProviderCatalog.Yaml.Text
import ProviderCatalog.Text.Utf8

/-!
# Tokens of a document

## Main definitions

* `Token`: the tokens.
* `directive`, `nodeName`, `nodeTag`: directives, names of nodes, and tags.
-/

namespace ProviderCatalog.Yaml

/-- A token. -/
inductive Token where
  /-- A version. -/
  | version (major : Nat)
  /-- What a handle of tags stands for. -/
  | handle (name stands : List Char)
  /-- A directive without a meaning. -/
  | remark
  | documentStart
  | documentEnd
  | blockSequenceStart
  | blockMappingStart
  | blockEnd
  | flowSequenceStart
  | flowSequenceEnd
  | flowMappingStart
  | flowMappingEnd
  | flowEntry
  | blockEntry
  | key
  | value
  | reference (name : List Char)
  | anchor (name : List Char)
  /-- A tag: a handle, if there is one, and the rest. -/
  | tag (handle : Option (List Char)) (suffix : List Char)
  | scalar (plain : Bool) (text : Text)
deriving DecidableEq, Repr

open Scan

/-- Whether a character can stand in a name. -/
def isNameChar (c : Char) : Bool := c.isAlphanum || c == '-' || c == '_'

/-- Reads a name that is not empty. -/
def name : Scan (List Char) := do
  let s ← span isNameChar
  if s.isEmpty then refuse
  return s

/-! ### Tags -/

/-- The characters besides letters and digits that can stand in a tag as they are. -/
def tagMarks : List Char :=
  ['-', ';', '/', '?', ':', '@', '&', '=', '+', '$', ',', '_', '.', '!', '~', '*', '\'', '(', ')',
    '[', ']']

/-- Whether a character can stand in a tag as it is. -/
def isTagChar (c : Char) : Bool := c.isAlphanum || tagMarks.contains c

/-- The bytes of escapes with percent signs. -/
def percentBytes : Nat → Scan Bytes
  | 0 => return []
  | n + 1 => do
    if (← peek 0) != '%' then return []
    skip 1
    let b ← hexNumber 2
    return UInt8.ofNat b :: (← percentBytes n)

/-- The characters that escapes with percent signs stand for. -/
def percentChars : Scan (List Char) := do
  let bs ← percentBytes (← bound)
  match (Text.ofUtf8? bs).bind Text.toChars? with
  | some cs => return cs
  | none => refuse

/-- The characters of a tag. -/
def tagCharsFrom : Nat → Scan (List Char)
  | 0 => return []
  | n + 1 => do
    let s ← span isTagChar
    if (← peek 0) == '%' then
      let e ← percentChars
      return s ++ e ++ (← tagCharsFrom n)
    else return s

/-- The characters of a tag that is not empty. -/
def tagChars : Scan (List Char) := do
  let c ← peek 0
  if !isTagChar c && c != '%' then refuse
  tagCharsFrom (← bound)

/-- A handle of tags. -/
def tagHandle : Scan (List Char) := do
  expect (· == '!')
  if (← peek 1) == ' ' then
    skip 1
    return ['!']
  else
    skip 1
    let s ← span isNameChar
    expect (· == '!')
    skip 1
    return '!' :: s ++ ['!']

/-- Whether a tag has a second exclamation mark before the next blank. -/
def hasHandle (cs : List Char) : Bool := (cs.takeWhile (!endsWord ·)).contains '!'

/-- A tag. -/
def nodeTag : Scan Token := do
  let c ← peek 1
  let t ←
    if c == '<' then
      skip 2
      let s ← tagChars
      expect (· == '>')
      skip 1
      pure (.tag none s)
    else if endsToken c then
      skip 1
      pure (.tag none ['!'])
    else if hasHandle ((← get).rest.drop 1) then
      let h ← tagHandle
      pure (.tag (some h) (← tagChars))
    else
      skip 1
      pure (.tag (some ['!']) (← tagChars))
  expect endsWord
  return t

/-- The characters besides blanks that can follow the name of a node. -/
def nameEnds : List Char := ['?', ':', ',', ']', '\x7d', '%', '@', '\x60']

/-- The name of a node, behind its mark. -/
def nodeName : Scan (List Char) := do
  skip 1
  let s ← name
  expect fun c => endsToken c || nameEnds.contains c
  return s

/-! ### Directives -/

/-- Reads a number. -/
def number : Scan Nat := do
  expect Char.isDigit
  return (← span Char.isDigit).foldl (fun n c => 10 * n + (c.toNat - 0x30)) 0

/-- A directive. -/
def directive : Scan Token := do
  skip 1
  let s ← name
  expect endsWord
  let t ←
    if s == "YAML".toList then
      spaces
      let major ← number
      expect (· == '.')
      skip 1
      let _ ← number
      expect endsWord
      pure (.version major)
    else if s == "TAG".toList then
      spaces
      let h ← tagHandle
      expect (· == ' ')
      spaces
      let stands ← tagChars
      expect endsWord
      pure (.handle h stands)
    else
      let _ ← span (!endsLine ·)
      pure .remark
  restOfLine
  return t

end ProviderCatalog.Yaml
