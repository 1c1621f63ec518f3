import ProviderCatalog.Go.Letter

/-!
# Tokens of Go sources

A source is cut into tokens, each with the blanks and comments in front of it. Nothing is lost: the
leading parts and the texts of the tokens, put together, are the source up to the trailing blanks.
A token also knows whether a line feed outside comments precedes it, because such a line feed can
end a statement.

## Main definitions

* `TokenKind`, `Token`: the tokens.
* `takeLeading`, `gapOf`: what precedes a token, and the comments in it.
* `tokens?`: the tokens of a source, if it can be cut into them.
-/

namespace ProviderCatalog.Go

/-- The kinds of tokens. -/
inductive TokenKind where
  /-- An identifier or a keyword. -/
  | word
  | int
  | float
  | imaginary
  | rune
  | rawString
  | string
  /-- An operator, a bracket or another mark. -/
  | symbol
  /-- The character with number zero, which can end a statement. -/
  | nul
deriving DecidableEq, Repr

/-- A token with what precedes it. -/
structure Token where
  kind : TokenKind
  /-- The blanks and comments in front of the token. -/
  leading : List Char
  /-- Whether a line feed outside comments is among them. -/
  afterLineFeed : Bool
  text : List Char
deriving DecidableEq, Repr

/-- Whether the token has the given text. -/
def Token.is (t : Token) (s : String) : Bool := t.text == s.toList

/-- The words that name nothing. -/
def reservedWords : List String := [
  "break", "case", "chan", "const", "continue", "default", "defer", "else", "fallthrough", "for",
  "func", "go", "goto", "if", "import", "interface", "map", "package", "range", "return", "select",
  "struct", "switch", "type", "var"]

/-- Whether the token is a word that can name something. -/
def Token.isName (t : Token) : Bool :=
  t.kind == .word && !reservedWords.any fun w => t.is w

/-- The words that have a meaning of their own where an expression begins. They name neither a type
nor a label there. -/
def operandWords : List String := ["nil", "true", "false", "iota", "new", "make"]

/-! ### Blanks and comments -/

/-- Whether a character separates tokens. -/
def isSeparator (c : Char) : Bool :=
  ('\t' ≤ c && c ≤ '\r') || c == ' ' || c == '\u0085' || c == '\u00a0' || c == '\u1680' ||
  ('\u2000' ≤ c && c ≤ '\u200a') || c == '\u2028' || c == '\u2029' || c == '\u202f' ||
  c == '\u205f' || c == '\u3000'

/-- Where a position is relative to comments. -/
inductive CommentState where
  | outside
  | line
  | block

/-- The blanks and comments at the front of a source. -/
structure Leading where
  text : List Char
  lineFeed : Bool
  rest : List Char

/-- One character more in front. -/
def Leading.push (c : Char) (l : Leading) : Leading := { l with text := c :: l.text }

/-- Whether a block comment that has been opened is closed, before any character with number
zero. -/
def closesBlock : List Char → Bool
  | '*' :: '/' :: _ => true
  | '\x00' :: _ => false
  | _ :: cs => closesBlock cs
  | [] => false

/-- Splits the blanks and comments off a source. A block comment that is never closed is none, and
a character with number zero ends a line comment. -/
def takeLeading : CommentState → List Char → Leading
  | .outside, '/' :: '/' :: cs => ((takeLeading .line cs).push '/').push '/'
  | .outside, '/' :: '*' :: cs =>
    if closesBlock cs then ((takeLeading .block cs).push '*').push '/'
    else ⟨[], false, '/' :: '*' :: cs⟩
  | .outside, '\n' :: cs => { (takeLeading .outside cs).push '\n' with lineFeed := true }
  | .outside, c :: cs =>
    if isSeparator c then (takeLeading .outside cs).push c else ⟨[], false, c :: cs⟩
  | .line, '\n' :: cs => { (takeLeading .outside cs).push '\n' with lineFeed := true }
  | .line, '\x00' :: cs => ⟨[], false, '\x00' :: cs⟩
  | .line, c :: cs => (takeLeading .line cs).push c
  | .block, '*' :: '/' :: cs => ((takeLeading .outside cs).push '/').push '*'
  | .block, c :: cs => (takeLeading .block cs).push c
  | _, [] => ⟨[], false, []⟩

/-- Blanks and comments that are cut apart. -/
structure Gap where
  /-- The comments, each behind the blanks in front of it. -/
  comments : List (List Char × List Char)
  /-- The blanks behind the last comment. -/
  blanks : List Char

/-- The gap with one comment more in front. -/
def Gap.push (blanks comment : List Char) (g : Gap) : Gap :=
  { g with comments := (blanks, comment) :: g.comments }

/-- Cuts blanks and comments apart, behind some blanks and the beginning of a comment, which are
both given backwards. The line feed behind a line comment is no part of it. -/
def cutComments (blanks comment : List Char) : CommentState → List Char → Gap
  | .outside, '/' :: '/' :: cs => cutComments blanks ['/', '/'] .line cs
  | .outside, '/' :: '*' :: cs => cutComments blanks ['*', '/'] .block cs
  | .outside, c :: cs => cutComments (c :: blanks) [] .outside cs
  | .outside, [] => ⟨[], blanks.reverse⟩
  | .line, '\n' :: cs => (cutComments ['\n'] [] .outside cs).push blanks.reverse comment.reverse
  | .line, c :: cs => cutComments blanks (c :: comment) .line cs
  | .block, '*' :: '/' :: cs =>
    (cutComments [] [] .outside cs).push blanks.reverse ('/' :: '*' :: comment).reverse
  | .block, c :: cs => cutComments blanks (c :: comment) .block cs
  | _, [] => ⟨[(blanks.reverse, comment.reverse)], []⟩

/-- The gap that blanks and comments make. -/
def gapOf (leading : List Char) : Gap := cutComments [] [] .outside leading

/-! ### Numbers -/

/-- A way to split a beginning off a source: its length, if it is there. -/
abbrev Matcher := List Char → Option Nat

/-- Whether a character is an octal digit. -/
def isOctal (c : Char) : Bool := '0' ≤ c && c ≤ '7'

/-- Whether a character is a binary digit. -/
def isBinary (c : Char) : Bool := c == '0' || c == '1'

/-- Whether a character is a hexadecimal digit. -/
def isHex (c : Char) : Bool :=
  c.isDigit || ('a' ≤ c && c ≤ 'f') || ('A' ≤ c && c ≤ 'F')

/-- The length of the digits after a first digit, single underscores allowed between them. -/
def moreDigits (p : Char → Bool) : List Char → Nat
  | '_' :: c :: cs => if p c then moreDigits p cs + 2 else 0
  | c :: cs => if p c then moreDigits p cs + 1 else 0
  | [] => 0

/-- The length of a run of digits. -/
def digits (p : Char → Bool) : Matcher
  | c :: cs => if p c then some (moreDigits p cs + 1) else none
  | [] => none

/-- The length of digits that an underscore may precede. -/
def paddedDigits (p : Char → Bool) : Matcher
  | '_' :: cs => (digits p cs).map (· + 1)
  | cs => digits p cs

/-- The longer of two lengths. -/
def longest (a b : Option Nat) : Option Nat :=
  match a, b with
  | some m, some n => some (max m n)
  | some m, none => some m
  | none, b => b

/-- The length of an integer literal. -/
def intLength : Matcher
  | '0' :: cs =>
    let based := match cs with
      | x :: r =>
        if x == 'x' || x == 'X' then (paddedDigits isHex r).map (· + 2)
        else if x == 'b' || x == 'B' then (paddedDigits isBinary r).map (· + 2)
        else if x == 'o' || x == 'O' then (paddedDigits isOctal r).map (· + 2)
        else (paddedDigits isOctal cs).map (· + 1)
      | [] => none
    longest (some 1) based
  | c :: cs => if c.isDigit then some (moreDigits Char.isDigit cs + 1) else none
  | [] => none

/-- The length of an exponent after one of the two given letters. -/
def exponentLength (lower upper : Char) : Matcher
  | e :: cs =>
    if e == lower || e == upper then
      match cs with
      | '+' :: r | '-' :: r => (digits Char.isDigit r).map (· + 2)
      | r => (digits Char.isDigit r).map (· + 1)
    else none
  | [] => none

/-- The length of a decimal floating-point literal. -/
def decimalFloatLength (cs : List Char) : Option Nat :=
  let whole := (digits Char.isDigit cs).getD 0
  match cs.drop whole with
  | '.' :: r =>
    let fraction := (digits Char.isDigit r).getD 0
    if whole = 0 && fraction = 0 then none
    else some (whole + 1 + fraction + (exponentLength 'e' 'E' (r.drop fraction)).getD 0)
  | r => if whole = 0 then none else (exponentLength 'e' 'E' r).map (whole + ·)

/-- The length of a hexadecimal floating-point literal. -/
def hexFloatLength : Matcher
  | '0' :: x :: cs =>
    if x == 'x' || x == 'X' then
      let whole := (paddedDigits isHex cs).getD 0
      let mantissa := match cs.drop whole with
        | '.' :: r => whole + 1 + (digits isHex r).getD 0
        | _ => whole
      if mantissa = 0 || (whole = 0 && mantissa = 1) then none
      else (exponentLength 'p' 'P' (cs.drop mantissa)).map (· + mantissa + 2)
    else none
  | _ => none

/-- The length of a floating-point literal. -/
def floatLength (cs : List Char) : Option Nat :=
  longest (decimalFloatLength cs) (hexFloatLength cs)

/-- The length of an imaginary literal. -/
def imaginaryLength (cs : List Char) : Option Nat :=
  let candidates := [digits Char.isDigit cs, intLength cs, floatLength cs].filterMap id
  (candidates.filter fun n => (cs.drop n).head? == some 'i').max?.map (· + 1)

/-- The kind and the length of the longest number at the front of a source. -/
def numberLength? (cs : List Char) : Option (TokenKind × Nat) :=
  match imaginaryLength cs, floatLength cs, intLength cs with
  | some n, _, _ => some (.imaginary, n)
  | none, some n, _ => some (.float, n)
  | none, none, some n => some (.int, n)
  | none, none, none => none

/-! ### Strings and runes -/

/-- Whether a source begins with the given number of characters of a class. -/
def beginsWith (p : Char → Bool) (n : Nat) (cs : List Char) : Bool :=
  (cs.take n).length == n && (cs.take n).all p

/-- The length of a rune literal after its opening quote, the closing quote included. -/
def runeLength : Matcher
  | '\\' :: e :: cs =>
    let after := if e == 'x' then (if beginsWith isHex 2 cs then some 2 else none)
      else if e == 'u' then (if beginsWith isHex 4 cs then some 4 else none)
      else if e == 'U' then (if beginsWith isHex 8 cs then some 8 else none)
      else if isOctal e then (if beginsWith isOctal 2 cs then some 2 else none)
      else if "abfnrtv\\'\"".toList.contains e then some 0
      else none
    after.bind fun n => if (cs.drop n).head? == some '\'' then some (n + 3) else none
  | c :: '\'' :: _ => if c == '\'' || c == '\\' || c == '\x00' then none else some 2
  | _ => none

/-- The length of an interpreted string literal after its opening quote, the closing quote
included. A backslash takes the next character with it, and the escapes by number must have their
digits. No string holds the character with number zero. -/
def stringLength : List Char → Option Nat
  | [] => none
  | '"' :: _ => some 1
  | '\n' :: _ | '\x00' :: _ | '\\' :: '\x00' :: _ => none
  | ['\\'] => none
  | '\\' :: e :: cs =>
    if (e == 'x' && !beginsWith isHex 2 cs) || (e == 'u' && !beginsWith isHex 4 cs) ||
        (e == 'U' && !beginsWith isHex 8 cs) then none
    else (stringLength cs).map (· + 2)
  | _ :: cs => (stringLength cs).map (· + 1)

/-- The length of a raw string literal after its opening mark, the closing mark included. -/
def rawStringLength : List Char → Option Nat
  | [] => none
  | '\x00' :: _ => none
  | c :: cs => if c == '\x60' then some 1 else (rawStringLength cs).map (· + 1)

/-! ### The scanner -/

/-- The marks, longer ones before their beginnings. -/
def symbols : List (List Char) := [
  "<<=", ">>=", "&^=", "...", "&&", "||", "<-", "++", "--", "==", "!=", "<=", ">=", ":=", "+=", "-=",
  "*=", "/=", "%=", "&=", "|=", "^=", "<<", ">>", "&^", "+", "-", "*", "/", "%", "&", "|", "^", "<",
  ">", "=", "!", "(", ")", "[", "]", "\x7b", "\x7d", ",", ";", ".", ":", "~"].map String.toList

/-- The kind and the length of the token at the front of a source. -/
def tokenLength? : List Char → Option (TokenKind × Nat)
  | [] => none
  | '\x00' :: _ => some (.nul, 1)
  | '"' :: cs => (stringLength cs).map fun n => (.string, n + 1)
  | '\x60' :: cs => (rawStringLength cs).map fun n => (.rawString, n + 1)
  | '\'' :: cs => (runeLength cs).map fun n => (.rune, n + 1)
  | c :: cs =>
    if isLetter c then some (.word, (cs.takeWhile isIdentifierChar).length + 1)
    else match numberLength? (c :: cs) with
      | some r => some r
      | none => (symbols.find? (·.isPrefixOf (c :: cs))).map fun s => (.symbol, s.length)

/-- The tokens of a source of at most the given length. -/
def scan? : Nat → List Char → Option (List Token)
  | 0, cs => if cs.isEmpty then some [] else none
  | fuel + 1, cs =>
    let l := takeLeading .outside cs
    match l.rest with
    | [] => some []
    | rest => do
      let (kind, n) ← tokenLength? rest
      let ts ← scan? fuel (rest.drop n)
      return ⟨kind, l.text, l.lineFeed, rest.take n⟩ :: ts

/-- A source without a byte order mark at its very beginning. -/
def withoutMark : List Char → List Char
  | '\uFEFF' :: cs => cs
  | cs => cs

/-- The tokens of a source. A byte order mark is passed over. -/
def tokens? (source : List Char) : Option (List Token) :=
  scan? ((withoutMark source).length + 1) (withoutMark source)

end ProviderCatalog.Go
