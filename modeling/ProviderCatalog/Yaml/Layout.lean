import ProviderCatalog.Yaml.Token

/-!
# Layout of a document

Indentation opens and closes blocks, and a scalar, an alias or a collection becomes a key when a
colon follows it on the same line, not too far behind. The layout turns both into tokens.

## Main definitions

* `KeyCandidate`: a token that becomes a key if a colon follows.
* `Layout`: the tokens so far and what decides about the next ones.
* `layout`: the tokens of a document.
-/

namespace ProviderCatalog.Yaml

/-- A token that becomes a key if a colon follows. -/
structure KeyCandidate where
  /-- The number of tokens before the token. -/
  position : Nat
  /-- Whether the token can be nothing else, because it starts a line of a block mapping. -/
  required : Bool
  place : Cursor

/-- The tokens so far and what decides about the next ones. -/
structure Layout where
  tokens : List Token
  cursor : Cursor
  /-- The number of flow collections around the place. -/
  depth : Nat
  /-- The indentation of the innermost block. -/
  indent : Int
  /-- The indentations of the blocks around it. -/
  outer : List Int
  /-- Whether a key may start at the place. -/
  keyAllowed : Bool
  /-- The last candidate of each flow collection and of the block around them. -/
  candidates : List (Nat × KeyCandidate)

namespace Layout

/-- Building a layout. -/
abbrev Build := StateT Layout (Except Fault)

/-- Reads from the place on. -/
def scan {α : Type} (x : Scan α) : Build α := do
  let l ← get
  let (a, cursor) ← x.run l.cursor
  set { l with cursor }
  return a

/-- Gives up. -/
def refuse {α : Type} : Build α := throw .malformed

/-- Whether the place is inside a flow collection. -/
def inFlow : Build Bool := return (← get).depth != 0

/-- Adds a token. -/
def emit (t : Token) : Build Unit := modify fun l => { l with tokens := l.tokens ++ [t] }

/-- Says whether a key may start at the next place. -/
def allowKey (b : Bool) : Build Unit := modify fun l => { l with keyAllowed := b }

/-- The column of the place. -/
def column : Build Int := return (← get).cursor.column

/-! ### Candidates -/

/-- The largest distance between a key and its colon. -/
def maxKeyLength : Nat := 1024

/-- Whether a candidate is out of reach of a colon at a place. -/
def KeyCandidate.isStale (k : KeyCandidate) (c : Cursor) : Bool :=
  k.place.line != c.line || maxKeyLength < c.index - k.place.index

/-- Drops the candidates out of reach; none of them may be required. -/
def dropStale : Build Unit := do
  let l ← get
  let (stale, live) := l.candidates.partition fun k => KeyCandidate.isStale k.2 l.cursor
  if stale.any (·.2.required) then refuse
  set { l with candidates := live }

/-- Drops the candidate of the innermost collection, which may not be required. -/
def dropCandidate : Build Unit := do
  let l ← get
  match l.candidates.lookup l.depth with
  | none => return
  | some k =>
    if k.required then refuse
    set { l with candidates := l.candidates.filter (·.1 != l.depth) }

/-- Makes the next token a candidate, if a key may start there. -/
def saveCandidate : Build Unit := do
  if (← get).keyAllowed then
    dropCandidate
    let l ← get
    let required := l.depth == 0 && l.indent == l.cursor.column
    set { l with candidates := (l.depth, ⟨l.tokens.length, required, l.cursor⟩) :: l.candidates }

/-! ### Indentation -/

/-- Closes the blocks that are indented beyond a column. -/
def closeBlocks (column : Int) (tokens : List Token) (indent : Int) :
    List Int → List Token × Int × List Int
  | [] => (tokens, indent, [])
  | i :: outer =>
    if column < indent then closeBlocks column (tokens ++ [.blockEnd]) i outer
    else (tokens, indent, i :: outer)

/-- Closes the blocks that are indented beyond a column, outside flow collections. -/
def unwind (column : Int) : Build Unit := do
  let l ← get
  if l.depth == 0 then
    let (tokens, indent, outer) := closeBlocks column l.tokens l.indent l.outer
    set { l with tokens, indent, outer }

/-- Opens a block at a column, if it is indented further than the innermost one. -/
def openBlock (column : Int) : Build Bool := do
  let l ← get
  if l.indent < column then
    set { l with outer := l.indent :: l.outer, indent := column }
    return true
  else return false

/-! ### Tokens -/

/-- Passes over blanks, comments and line breaks. -/
def toNextToken : Nat → Build Unit
  | 0 => return
  | n + 1 => do
    scan Scan.spaces
    scan Scan.comment
    if (← scan Scan.lineBreak).isSome then
      if !(← inFlow) then allowKey true
      toNextToken n

/-- A mark between documents, or the end of the last one. -/
def separate : Build Unit := do
  unwind (-1)
  dropCandidate
  allowKey false

/-- The start of a flow collection. -/
def openFlow (t : Token) : Build Unit := do
  saveCandidate
  modify fun l => { l with depth := l.depth + 1 }
  allowKey true
  scan (Scan.skip 1)
  emit t

/-- The end of a flow collection. -/
def closeFlow (t : Token) : Build Unit := do
  dropCandidate
  if !(← inFlow) then refuse
  modify fun l => { l with depth := l.depth - 1 }
  allowKey false
  scan (Scan.skip 1)
  emit t

/-- A comma between the items of a flow collection. -/
def flowEntry : Build Unit := do
  allowKey true
  dropCandidate
  scan (Scan.skip 1)
  emit .flowEntry

/-- Requires that a key may start at the place. -/
def requireKeyAllowed : Build Unit := do
  if !(← get).keyAllowed then refuse

/-- A hyphen before an item of a block sequence. -/
def blockEntry : Build Unit := do
  if !(← inFlow) then
    requireKeyAllowed
    if ← openBlock (← column) then emit .blockSequenceStart
  allowKey true
  dropCandidate
  scan (Scan.skip 1)
  emit .blockEntry

/-- A question mark before a key. -/
def explicitKey : Build Unit := do
  let flow ← inFlow
  if !flow then
    requireKeyAllowed
    if ← openBlock (← column) then emit .blockMappingStart
  allowKey (!flow)
  dropCandidate
  scan (Scan.skip 1)
  emit .key

/-- A colon, which makes a key of the candidate, if there is one. -/
def value : Build Unit := do
  let l ← get
  let flow ← inFlow
  match l.candidates.lookup l.depth with
  | some k =>
    modify fun l => { l with candidates := l.candidates.filter (·.1 != l.depth) }
    let opened ← if flow then pure false else openBlock k.place.column
    let marks := (if opened then [.blockMappingStart] else []) ++ [Token.key]
    modify fun l =>
      { l with tokens := l.tokens.take k.position ++ marks ++ l.tokens.drop k.position }
    allowKey false
  | none =>
    if !flow then
      requireKeyAllowed
      if ← openBlock (← column) then emit .blockMappingStart
    allowKey (!flow)
    dropCandidate
  scan (Scan.skip 1)
  emit .value

/-- A token that can be a key. -/
def keyLike (x : Scan Token) : Build Unit := do
  saveCandidate
  allowKey false
  emit (← scan x)

/-- A block of lines. -/
def block (fold : Bool) : Build Unit := do
  allowKey true
  dropCandidate
  let indent := (← get).indent
  emit (.scalar false (Text.ofChars (← scan (blockText fold indent))))

/-- A plain scalar. -/
def plain : Build Unit := do
  saveCandidate
  let l ← get
  let (s, broken) ← scan (plainText (l.depth != 0) l.indent)
  allowKey broken
  emit (.scalar true (Text.ofChars s))

/-- The characters besides flow marks that start something else than a plain scalar. -/
def indicators : List Char :=
  ['-', '?', ':', '#', '&', '*', '!', '|', '>', '\'', '"', '%', '@', '\x60']

/-- Whether a plain scalar can start with a character before `next`. -/
def startsPlain (flow : Bool) (c next : Char) : Bool :=
  (!endsToken c && !isFlowMark c && !indicators.contains c)
    || (!endsToken next && (c == '-' || (!flow && (c == '?' || c == ':'))))

/-- The next token, behind any blocks that it closes. Tells whether there was one. -/
def next : Build Bool := do
  toNextToken (← get).cursor.rest.length.succ
  dropStale
  unwind (← column)
  let c ← scan (Scan.peek 0)
  let d ← scan (Scan.peek 1)
  let atStart := (← column) == 0
  let flow ← inFlow
  let cursor := (← get).cursor
  if c == endMark then
    separate
    return false
  if c == '%' && atStart then
    separate
    emit (← scan directive)
  else if c == '-' && atStart && cursor.atMarks '-' then
    separate
    scan (Scan.skip 3)
    emit .documentStart
  else if c == '.' && atStart && cursor.atMarks '.' then
    separate
    scan (Scan.skip 3)
    emit .documentEnd
  else if c == '[' then openFlow .flowSequenceStart
  else if c == '\x7b' then openFlow .flowMappingStart
  else if c == ']' then closeFlow .flowSequenceEnd
  else if c == '\x7d' then closeFlow .flowMappingEnd
  else if c == ',' then flowEntry
  else if c == '-' && endsToken d then blockEntry
  else if c == '?' && (flow || endsToken d) then explicitKey
  else if c == ':' && (flow || endsToken d) then value
  else if c == '*' then keyLike (return .reference (← nodeName))
  else if c == '&' then keyLike (return .anchor (← nodeName))
  else if c == '!' then keyLike nodeTag
  else if c == '|' && !flow then block false
  else if c == '>' && !flow then block true
  else if c == '\'' then keyLike (return .scalar false (← quotedText false))
  else if c == '"' then keyLike (return .scalar false (← quotedText true))
  else if startsPlain flow c d then plain
  else refuse
  return true

/-- All further tokens. -/
def rest : Nat → Build Unit
  | 0 => refuse
  | n + 1 => do
    if ← next then rest n

/-- The layout at the start of a document, behind a byte order mark. -/
def start (cs : List Char) : Layout :=
  let c := Cursor.start cs
  ⟨[], if c.peek 0 == byteOrderMark then c.past [byteOrderMark] else c, 0, -1, [], true, []⟩

end Layout

/-- The tokens of a document. -/
def layout (cs : List Char) : Except Fault (List Token) := do
  let (_, l) ← (Layout.rest (cs.length + 1)).run (.start cs)
  return l.tokens

end ProviderCatalog.Yaml
