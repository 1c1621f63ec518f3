import ProviderCatalog.Datum
import ProviderCatalog.Number.Decimal
import ProviderCatalog.Text.Search

/-!
# Tokens of JSON documents

A document is cut into brackets, separators and scalars by an automaton that reads one code point
at a time. Two readings of string escapes are in use: the lenient one lets an escape spell a lone
surrogate, the strict one refuses it. What cannot be cut further is a last, invalid token: whether
it is the first fault of the document depends on the tokens before it.

## Main definitions

* `Json.Strictness`: the two readings.
* `Json.Token`: the tokens.
* `Json.tokens`: the tokens of a text.
-/

namespace ProviderCatalog.Json

/-- How a document is read. -/
structure Strictness where
  /-- Whether an escape may spell a surrogate without its other half. -/
  loneSurrogates : Bool
  /-- The deepest nesting of lists and mappings. -/
  maxDepth : Nat

/-- The reading that keeps lone surrogates. Its depth is what the stack of the reader leaves when it
is called at the top of a run. -/
def lenient : Strictness := ⟨true, 990⟩

/-- The reading that refuses lone surrogates. -/
def strict : Strictness := ⟨false, 200⟩

/-- A token of a document. -/
inductive Token where
  | openList
  | closeList
  | openMapping
  | closeMapping
  | comma
  | colon
  | scalar (d : Datum)
  /-- An integer of more digits than are read. -/
  | tooLong (digits : Nat)
  /-- Something that is no token. -/
  | invalid

/-- Splits a run of decimal digits from the front of a word. -/
def takeDigits (cs : List Char) : List Char × List Char := cs.span fun c => '0' ≤ c && c ≤ '9'

/-- The exponent spelt at the end of a number. -/
def readExponent? : List Char → Option Int
  | 'e' :: cs | 'E' :: cs =>
    let (negative, cs) := Decimal.splitSign cs
    match takeDigits cs with
    | ([], _) => none
    | (ds, []) => some (Decimal.signed negative (Decimal.ofDigits ds))
    | _ => none
  | _ => none

/-- The number spelt by a word that starts with no sign. -/
def readUnsigned? (negative : Bool) (cs : List Char) : Option Datum :=
  let (whole, rest) := takeDigits cs
  let leadingZero := match whole with
    | '0' :: _ :: _ => true
    | _ => false
  if whole.isEmpty || leadingZero then none
  else match rest with
    | [] =>
      if Decimal.maxDigits < whole.length then none
      else some (.int (Decimal.signed negative (Decimal.ofDigits whole)))
    | '.' :: r =>
      match takeDigits r with
      | ([], _) => none
      | (ds, []) =>
        some (.real (.ofDecimal negative (Decimal.ofDigits (whole ++ ds)) (-(ds.length : Int))))
      | (ds, r) => (readExponent? r).map fun e =>
          .real (.ofDecimal negative (Decimal.ofDigits (whole ++ ds)) (e - ds.length))
    | r => (readExponent? r).map fun e => .real (.ofDecimal negative (Decimal.ofDigits whole) e)

/-- The scalar spelt by a word outside quotes. -/
def readWord? (cs : List Char) : Option Datum :=
  if cs = "null".toList then some .null
  else if cs = "true".toList then some (.bool true)
  else if cs = "false".toList then some (.bool false)
  else if cs = "NaN".toList then some (.real .nan)
  else if cs = "Infinity".toList then some (.real (.infinite false))
  else if cs = "-Infinity".toList then some (.real (.infinite true))
  else match cs with
    | '-' :: r => readUnsigned? true r
    | r => readUnsigned? false r

/-- Whether what follows a whole number makes it a real one, by a fraction or an exponent. -/
def goesOn : List Char → Bool
  | '.' :: cs => !(takeDigits cs).1.isEmpty
  | 'e' :: cs | 'E' :: cs => !(takeDigits (Decimal.splitSign cs).2).1.isEmpty
  | _ => false

/-- The number of digits of an integer at the front of a word, if they are more than are read. What
follows the integer is not looked at. -/
def excess? (cs : List Char) : Option Nat :=
  let (whole, rest) := takeDigits (match cs with | '-' :: r => r | r => r)
  if whole.head? = some '0' || whole.length ≤ Decimal.maxDigits || goesOn rest then none
  else some whole.length

/-- The token of a word outside quotes. -/
def wordToken (cs : List Char) : Token :=
  match readWord? cs, excess? cs with
  | some d, _ => .scalar d
  | none, some n => .tooLong n
  | none, none => .invalid

/-- The value of a hexadecimal digit. -/
def hexValue? (c : Char) : Option Nat :=
  if '0' ≤ c && c ≤ '9' then some (c.toNat - 0x30)
  else if 'a' ≤ c && c ≤ 'f' then some (c.toNat - 0x57)
  else if 'A' ≤ c && c ≤ 'F' then some (c.toNat - 0x37)
  else none

/-- The code point of a one-letter escape. -/
def simpleEscape? : Char → Option Char
  | '"' => some '"'
  | '\\' => some '\\'
  | '/' => some '/'
  | 'b' => some '\x08'
  | 'f' => some '\x0c'
  | 'n' => some '\n'
  | 'r' => some '\r'
  | 't' => some '\t'
  | _ => none

/-- A string read so far: its code points backwards, and the offset of a first half of a surrogate
pair whose escape has just ended. -/
structure Partial where
  reversed : Text
  half : Option (Fin 1024)

/-- The state of the automaton. -/
inductive Scan where
  | outside
  | word (reversed : List Char)
  | string (p : Partial)
  | escape (p : Partial)
  | hex (p : Partial) (digits value : Nat)

/-- Settles a first half that no second half follows. -/
def Partial.settle? (rules : Strictness) (p : Partial) : Option Text :=
  match p.half with
  | none => some p.reversed
  | some n =>
    if rules.loneSurrogates then some (.surrogate ⟨n, by omega⟩ :: p.reversed) else none

/-- The string after one more code point that is not escaped by number. -/
def Partial.push? (rules : Strictness) (p : Partial) (x : CodePoint) : Option Partial :=
  (p.settle? rules).map fun r => ⟨x :: r, none⟩

/-- The string after an escape by the number `n`, below `0x10000`. -/
def Partial.pushNumber? (rules : Strictness) (p : Partial) (n : Nat) : Option Partial :=
  if h : 0xD800 ≤ n ∧ n < 0xDC00 then
    (p.settle? rules).map fun r => ⟨r, some ⟨n - 0xD800, by omega⟩⟩
  else if h : 0xDC00 ≤ n ∧ n < 0xE000 then
    match p.half with
    | some m =>
      some ⟨.scalar (Char.ofNat (0x10000 + 0x400 * m + (n - 0xDC00))) :: p.reversed, none⟩
    | none =>
      if rules.loneSurrogates then some ⟨.surrogate ⟨n - 0xD800, by omega⟩ :: p.reversed, none⟩
      else none
  else p.push? rules (.scalar (Char.ofNat n))

/-- The token that a code point outside strings and words begins or is, and the next state. -/
def outsideStep (c : Char) : List Token × Option Scan :=
  match c with
  | ' ' | '\t' | '\n' | '\r' => ([], some .outside)
  | '[' => ([.openList], some .outside)
  | ']' => ([.closeList], some .outside)
  | '\x7b' => ([.openMapping], some .outside)
  | '\x7d' => ([.closeMapping], some .outside)
  | ',' => ([.comma], some .outside)
  | ':' => ([.colon], some .outside)
  | '"' => ([], some (.string ⟨[], none⟩))
  | c => ([], if c.isAlphanum || c == '-' then some (.word [c]) else none)

/-- Whether a code point continues a word. -/
def isWordChar (c : Char) : Bool := c.isAlphanum || c == '-' || c == '+' || c == '.'

/-- One step of the automaton: the tokens that end here and the next state, if there is one. -/
def step (rules : Strictness) : Scan → CodePoint → List Token × Option Scan
  | .outside, .scalar c => outsideStep c
  | .outside, .surrogate _ => ([], none)
  | .word w, x =>
    match x with
    | .surrogate _ => ([wordToken w.reverse], none)
    | .scalar c =>
      if isWordChar c then ([], some (.word (c :: w)))
      else
        let (ts, s) := outsideStep c
        (wordToken w.reverse :: ts, s)
  | .string p, x =>
    if x == .scalar '"' then
      match p.settle? rules with
      | some r => ([.scalar (.text r.reverse)], some .outside)
      | none => ([], none)
    else if x == .scalar '\\' then ([], some (.escape p))
    else if x.value < 0x20 then ([], none)
    else ([], (p.push? rules x).map .string)
  | .escape p, x =>
    match x with
    | .scalar 'u' => ([], some (.hex p 0 0))
    | .scalar c => ([], do
      let y ← simpleEscape? c
      let p ← p.push? rules (.scalar y)
      some (.string p))
    | .surrogate _ => ([], none)
  | .hex p digits value, x => ([], do
    let c ← x.toChar?
    let v ← hexValue? c
    let value := 16 * value + v
    if digits = 3 then
      let p ← p.pushNumber? rules value
      some (.string p)
    else some (.hex p (digits + 1) value))

/-- The tokens that the automaton finds from a state on, after those found already, the last one
first. -/
def scan (rules : Strictness) (found : List Token) : Scan → Text → List Token
  | .outside, [] => found.reverse
  | .word w, [] => (wordToken w.reverse :: found).reverse
  | _, [] => (.invalid :: found).reverse
  | s, x :: t =>
    match step rules s x with
    | (ts, some s') => scan rules (ts.reverse ++ found) s' t
    | (ts, none) => (.invalid :: (ts.reverse ++ found)).reverse

/-- The tokens of a text. -/
def tokens (rules : Strictness) (t : Text) : List Token := scan rules [] .outside t

end ProviderCatalog.Json
