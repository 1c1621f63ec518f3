import ProviderCatalog.Validation.Issue
import ProviderCatalog.Text.Search
import ProviderCatalog.Text.Blank
import ProviderCatalog.Text.Utf8
import ProviderCatalog.Number.Decimal

/-!
# Records read field by field

A record is read from a mapping. A field is required, or falls back to a default when its key is
absent; a field that may be empty also takes null. Keys that no field has are passed over.

A scalar field takes a datum of its own kind and the obvious spellings of one: numbers and truth
values may be written as texts, a fraction without a fractional part is an integer, and truth
values are the integers zero and one. Texts are never made of numbers, but a byte string in UTF-8
counts as the text that it encodes.

## Main definitions

* `Checked.text`, `Checked.nonEmptyText`, `Checked.textOneOf`: texts.
* `Checked.int`, `Checked.intAtLeast`, `Checked.intBetween`: integers and their bounds.
* `Checked.bool`, `Checked.real`: truth values and binary numbers.
* `Checked.required`, `Checked.withDefault`, `Checked.optional`: the three kinds of fields.
* `Checked.list`: lists of values.
* `Checked.record`: the requirement that a datum is a mapping.
-/

namespace ProviderCatalog.Checked

/-! ### Scalars -/

/-- A text. -/
def text : Datum → Checked Text
  | .text t => valid t
  | .bytes bs =>
    match Text.ofUtf8? bs with
    | some t => valid t
    | none => fail .textNotUnicode
  | _ => fail .textExpected

/-- A text that can be encoded and is not empty. -/
def nonEmptyText (d : Datum) : Checked Text :=
  (text d).andThen fun t =>
    if !t.isUnicode then fail .textNotUnicode
    else if t.isEmpty then fail .textTooShort
    else valid t

/-- A member of an enumeration, by its name. -/
def textOneOf {α : Type} (named : List (Text × α)) : Datum → Checked α
  | .text t =>
    match named.lookup t with
    | some a => valid a
    | none => fail .notAllowed
  | _ => fail .notAllowed

/-- The digits of a number in which single underscores may stand between digits. -/
def plainDigits? : List Char → Option (List Char)
  | [] => none
  | [c] => if c.isDigit then some [c] else none
  | c :: '_' :: rest => if c.isDigit then (plainDigits? rest).map (c :: ·) else none
  | c :: rest => if c.isDigit then (plainDigits? rest).map (c :: ·) else none

/-- An integer written as a text, with a fraction of zeros allowed. -/
def intOfText (t : Text) : Checked Int :=
  match t.unpadded.toChars? with
  | none => fail .intUnreadable
  | some cs =>
    let (negative, cs) := Decimal.splitSign cs
    let (whole, fraction) := cs.span (· != '.')
    match plainDigits? whole with
    | none => fail .intUnreadable
    | some ds =>
      if !fraction.tail.all (· == '0') then fail .intUnreadable
      else if Decimal.maxDigits < t.length then fail .intTooLong
      else valid (Decimal.signed negative (Decimal.ofDigits ds))

/-- The integer that a binary number is. -/
def intOfReal (x : Binary64) : Checked Int :=
  match x.toRat? with
  | none => fail .numberNotFinite
  | some q => if q.den = 1 then valid q.num else fail .intFromFraction

/-- An integer. -/
def int : Datum → Checked Int
  | .int n => valid n
  | .bool b => valid (if b then 1 else 0)
  | .real x => intOfReal x
  | .text t => intOfText t
  | .bytes bs =>
    match Text.ofUtf8? bs with
    | some t => intOfText t
    | none => fail .intUnreadable
  | _ => fail .intExpected

/-- An integer that is not below a bound. -/
def intAtLeast (low : Int) (d : Datum) : Checked Int :=
  (int d).andThen fun n => if n < low then fail .tooSmall else valid n

/-- An integer between two bounds. -/
def intBetween (low high : Int) (d : Datum) : Checked Int :=
  (int d).andThen fun n =>
    if high < n then fail .tooLarge else if n < low then fail .tooSmall else valid n

/-- The texts for true, in lower case. -/
def trueTexts : List Text := ["1", "on", "t", "true", "y", "yes"]

/-- The texts for false, in lower case. -/
def falseTexts : List Text := ["0", "off", "f", "false", "n", "no"]

/-- A truth value written as a text, in any case. -/
def boolOfText (t : Text) : Checked Bool :=
  let t := t.map CodePoint.asciiLower
  if trueTexts.contains t then valid true
  else if falseTexts.contains t then valid false
  else fail .boolUnreadable

/-- A truth value written as an integer. -/
def boolOfInt (n : Int) : Checked Bool :=
  if n = 1 then valid true else if n = 0 then valid false else fail .boolUnreadable

/-- A truth value. -/
def bool : Datum → Checked Bool
  | .bool b => valid b
  | .int n => boolOfInt n
  | .text t => boolOfText t
  | .real x =>
    match intOfReal x with
    | valid n => boolOfInt n
    | invalid _ => fail .boolExpected
  | .bytes bs =>
    match Text.ofUtf8? bs with
    | some t => boolOfText t
    | none => fail .boolUnreadable
  | _ => fail .boolExpected

/-- Whether underscores stand at an end of a text or next to each other. -/
def hasLooseUnderscores (t : Text) : Bool :=
  t.startsWith "_" || t.endsWith "_" || t.contains "__"

/-- A binary number written as a text, in which single underscores may stand. -/
def realOfText (t : Text) : Checked Binary64 :=
  let read (t : Text) := t.unpadded.toChars?.bind Decimal.readAnyReal?
  match read t <|> if hasLooseUnderscores t then none else read (t.erase (.scalar '_')) with
  | some x => valid x
  | none => fail .realUnreadable

/-- A binary number. -/
def real : Datum → Checked Binary64
  | .real x => valid x
  | .int n => valid (.ofFraction (n < 0) n.natAbs 1)
  | .bool b => valid (.ofFraction false (if b then 1 else 0) 1)
  | .text t => realOfText t
  | _ => fail .realExpected

/-- Whether a binary number is at most an integer, which no number is that is not one. -/
def isAtMost (x : Binary64) (n : Int) : Bool :=
  match x with
  | .infinite negative => negative
  | x => x.toRat?.any fun q : Rat => q ≤ (n : Rat)

/-- Whether a binary number is at least an integer. -/
def isAtLeast (x : Binary64) (n : Int) : Bool :=
  match x with
  | .infinite negative => !negative
  | x => x.toRat?.any fun q : Rat => (n : Rat) ≤ q

/-- A binary number between two integers. -/
def realBetween (low high : Int) (d : Datum) : Checked Binary64 :=
  (real d).andThen fun x =>
    if !isAtMost x high then fail .tooLarge
    else if !isAtLeast x low then fail .tooSmall
    else valid x

/-! ### Fields -/

variable {α : Type}

/-- A field that has to be there. -/
def required (d : Datum) (name : String) (read : Datum → Checked α) : Checked α :=
  match d.get? name with
  | some v => (read v).within (.field name)
  | none => (fail .missing).within (.field name)

/-- A field that falls back to a default in its absence. -/
def withDefault (d : Datum) (name : String) (default : α) (read : Datum → Checked α) : Checked α :=
  match d.get? name with
  | some v => (read v).within (.field name)
  | none => valid default

/-- A value, or null for none. -/
def nullable (read : Datum → Checked α) : Datum → Checked (Option α)
  | .null => valid none
  | d => map some (read d)

/-- A field that may be absent or null. -/
def optional (d : Datum) (name : String) (read : Datum → Checked α) : Checked (Option α) :=
  withDefault d name none (nullable read)

/-- A list of values. -/
def list (read : Datum → Checked α) : Datum → Checked (List α)
  | .list items => each read 0 items
  | _ => fail .listExpected

/-- Reads a mapping as a record; any other datum is no record. -/
def record (read : Datum → Checked α) (d : Datum) : Checked α :=
  match d with
  | .mapping _ => read d
  | _ => fail .recordExpected

end ProviderCatalog.Checked
