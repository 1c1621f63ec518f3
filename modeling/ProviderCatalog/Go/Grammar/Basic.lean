import ProviderCatalog.Go.Node

/-!
# Parsers of Go phrases

A parser takes tokens from the front of a list and makes a tree of them, or fails. The phrases of
the language contain each other, so every parser of a phrase is written over a `Grammar`, which
holds the parsers of the phrases that it may contain; the grammar of a nesting depth is made from
the grammar of the depth below.

## Main definitions

* `Parser`: parsers.
* `Context`: what can end an expression at the place where it stands.
* `Grammar`: the parsers of the phrases that other phrases contain.
* `symbol`, `keyword`, `name`, `many`, `separated`: the basic parsers.
-/

namespace ProviderCatalog.Go

/-- A parser of a phrase. -/
abbrev Parser := StateT (List Token) Option

/-- The children of a phrase. -/
abbrev Parts := List (Role × Node)

/-- What can end an expression at the place where it stands. -/
structure Context where
  /-- A line feed ends it. -/
  lineFeedEnds : Bool
  /-- An opening brace begins a block. -/
  braceIsBlock : Bool
  /-- It can be followed by an increment, a decrement or an arrow, as a statement can. -/
  beginsStatement : Bool

/-- The place between brackets, where only the closing bracket ends an expression. -/
def inner : Context := ⟨false, false, false⟩

/-- The place of a statement in a block. -/
def atStatement : Context := ⟨true, false, true⟩

/-- The place between the keyword of a control statement and its block. -/
def atHeader : Context := ⟨false, true, true⟩

/-- The parsers of the phrases that contain each other. -/
structure Grammar where
  expression : Context → Parser Node
  unary : Context → Parser Node
  /-- A type; the flag tells whether a line feed ends it. -/
  type : Bool → Parser Node
  statement : Parser Node
  block : Parser Node
  ifStatement : Parser Node
  literalValue : Parser Node

/-- The grammar of no phrase at all. -/
def Grammar.empty : Grammar :=
  ⟨fun _ => failure, fun _ => failure, fun _ => failure, failure, failure, failure, failure⟩

/-! ### Looking ahead -/

/-- The next token. -/
def peek : Parser (Option Token) := do return (← get).head?

/-- Whether the next token has the given text. -/
def nextIs (s : String) : Parser Bool := do return (← peek).any (·.is s)

/-- Whether the next token has the given text and, if a line feed can end the phrase, stands on the
same line. -/
def continuesWith (lineFeedEnds : Bool) (s : String) : Parser Bool := do
  return (← peek).any fun t => t.is s && !(lineFeedEnds && t.afterLineFeed)

/-- Whether the next tokens have the given texts. -/
def nextAre (ss : List String) : Parser Bool := do
  let ts ← get
  return ss.length ≤ ts.length && (ts.zip ss).all fun (t, s) => t.is s

/-! ### Taking tokens -/

/-- Takes the next token as a leaf of the given kind. -/
def take (kind : Kind) : Parser Node := do
  match ← get with
  | t :: ts => set ts; return .leaf kind t.leading t.text
  | [] => failure

/-- Takes a token with the given text. -/
def token (kind : Kind) (s : String) : Parser Node := do
  if ← nextIs s then take kind else failure

/-- Takes a mark or a keyword as a part without a role. -/
def mark (s : String) : Parser (Role × Node) := do return (.part, ← token .mark s)

/-- Takes a mark if it comes next. -/
def optionalMark (s : String) : Parser Parts := do
  if ← nextIs s then return [← mark s] else return []

/-- Takes a name as a leaf of the given kind. -/
def name (kind : Kind) : Parser Node := do
  if (← peek).any Token.isName then take kind else failure

/-- Cuts the next token in two, the first of the given text, both marks. -/
def splitToken (first second : String) : Parser Unit := do
  match ← get with
  | t :: ts =>
    set (⟨.symbol, t.leading, t.afterLineFeed, first.toList⟩ ::
      ⟨.symbol, [], false, second.toList⟩ :: ts)
  | [] => failure

/-! ### Ends of statements -/

/-- Takes the end of a statement: a line feed before the next token, a semicolon or a character
with number zero. -/
def terminator : Parser Parts := do
  match ← peek with
  | some t =>
    if t.afterLineFeed then
      -- the line feed stays in the leading part of the next token
      modify fun ts => match ts with
        | t :: ts => { t with afterLineFeed := false } :: ts
        | [] => []
      return []
    else if t.is ";" || t.kind == .nul then return [(.part, ← take .mark)]
    else failure
  | none => failure

/-! ### Repetition -/

/-- Repeats a parser as long as it succeeds, at most `fuel` times. -/
def manyFrom {α : Type} (p : Parser α) : Nat → Parser (List α)
  | 0 => return []
  | fuel + 1 => (do
      let x ← p
      let xs ← manyFrom p fuel
      return x :: xs) <|> return []

/-- Repeats a parser that takes tokens as long as it succeeds. -/
def many {α : Type} (p : Parser α) : Parser (List α) := do manyFrom p (← get).length

/-- Elements that follow a separator each, with the separators. If a line feed ends the phrase, the
separators stand on the lines of the elements before them. -/
def separatedTail (lineFeedEnds : Bool) (sep : String) (p : Parser Parts) : Parser Parts := do
  let groups ← many do
    unless ← continuesWith lineFeedEnds sep do failure
    let s ← mark sep
    let x ← p
    return s :: x
  return groups.flatten

/-- One or more elements with a separator between neighbours, where a line feed may end the
phrase. -/
def separatedOn (lineFeedEnds : Bool) (sep : String) (p : Parser Parts) : Parser Parts := do
  let first ← p
  let rest ← separatedTail lineFeedEnds sep p
  return first ++ rest

/-- One or more elements with a separator between neighbours. -/
def separated (sep : String) (p : Parser Parts) : Parser Parts := separatedOn false sep p

/-- The result of a parser as a part in a role. -/
def inRole (r : Role) (p : Parser Node) : Parser Parts := do return [(r, ← p)]

/-- Nothing, or what a parser makes. -/
def orNothing (p : Parser Parts) : Parser Parts := p <|> return []

/-- The phrase of the given kind with the parts that a parser makes. -/
def phrase (kind : Kind) (p : Parser Parts) : Parser Node := do return .branch kind (← p)

end ProviderCatalog.Go
