import ProviderCatalog.Search.WordTable
import ProviderCatalog.Text.Basic

/-!
# Words of a text, and questions for them

A text is searched by its words: the longest runs of word characters, folded so that case and marks
do not count. What stands between the words does not count either.

A question to an index is a text with operators of its own, unless it stands in quotes: between two
quotes every character stands for itself, and a quote that is doubled for one. Nothing is read
behind the number zero.

## Main definitions

* `isWordChar`, `fold`: the characters of words and what they are folded to.
* `words`: the words of a text in order.
* `occurrences`: how often a phrase stands in a list of words.
* `quote`, `quoted`: a text as a question without operators.
* `unquoteFrom?`, `phrase?`: the words that a question in quotes asks for.
-/

namespace ProviderCatalog.Search

/-! ### Words -/

/-- A word, folded. -/
abbrev Word := List Char

/-- Whether a number lies in one of a list of closed ranges in ascending order. -/
def inSortedRanges (n : Nat) : List (Nat × Nat) → Bool
  | [] => false
  | (first, last) :: rest => first ≤ n && (n ≤ last || inSortedRanges n rest)

/-- Whether a character makes words. -/
def isWordChar (c : Char) : Bool := inSortedRanges c.toNat wordRanges

/-- Whether a character is a mark that continues a word. -/
def isJoiningMark (c : Char) : Bool := joiningMarks.contains c.toNat

/-- The small letter of a letter. -/
def small (c : Char) : Char :=
  if c.toNat < 128 then c.toLower
  else match smallRuns.find? (·.contains c.toNat) with
    | some r => Char.ofNat ((c.toNat : Int) + r.offset).toNat
    | none => c

/-- A small letter without the marks that it carries. -/
def unmarked (c : Char) : Char :=
  if c.toNat < 128 then c
  else match markedLetters.find? (·.2.contains c.toNat) with
    | some (d, _) => d
    | none => c

/-- What a character of a word is folded to. -/
def fold (c : Char) : Char := unmarked (small c)

/-- The words from a place in a text on, where `current` is the word that the place continues, its
last character first. -/
def wordsFrom (current : Option Word) : Text → List Word
  | [] => (current.map List.reverse).toList
  | p :: t =>
    match p with
    | .scalar c =>
      if isWordChar c then wordsFrom (some (fold c :: current.getD [])) t
      else if current.isSome && isJoiningMark c then wordsFrom current t
      else (current.map List.reverse).toList ++ wordsFrom none t
    | .surrogate _ => (current.map List.reverse).toList ++ wordsFrom none t

/-- The words of a text. -/
def words (t : Text) : List Word := wordsFrom none t

/-- The number of places in a list of words at which a phrase stands. -/
def occurrences (phrase : List Word) : List Word → Nat
  | [] => 0
  | w :: ws => (if phrase.isPrefixOf (w :: ws) then 1 else 0) + occurrences phrase ws

/-! ### Questions -/

/-- The code point around a text in quotes. -/
def quote : CodePoint := .scalar '"'

/-- The code point behind which nothing is read. -/
def terminator : CodePoint := .scalar '\x00'

/-- A text in quotes, with the quotes in it doubled. -/
def quoted (t : Text) : Text :=
  quote :: t.flatMap (fun p => if p == quote then [quote, quote] else [p]) ++ [quote]

/-- The text up to the quote that closes it, with what follows the quote. -/
def unquoteFrom? : Text → Option (Text × Text)
  | [] => none
  | [p] => if p == quote then some ([], []) else none
  | p :: q :: t =>
    if p == terminator then none
    else if p == quote then
      if q == quote then (unquoteFrom? t).map fun (s, rest) => (quote :: s, rest)
      else some ([], q :: t)
    else (unquoteFrom? (q :: t)).map fun (s, rest) => (p :: s, rest)

/-- The words that a question asks for to stand next to each other, if it is a text in quotes. -/
def phrase? : Text → Option (List Word)
  | [] => none
  | p :: t =>
    if p == quote then
      match unquoteFrom? t with
      | some (s, []) => some (words s)
      | _ => none
    else none

end ProviderCatalog.Search
