import ProviderCatalog.Text.Basic

/-!
# Kinds of nodes

The kind of a node says what it denotes. A tag gives it; a plain scalar without a tag has the kind
that its spelling suggests, and is a text if it suggests none.

## Main definitions

* `Kind`: the kinds.
* `Kind.ofTag`, `Kind.ofSpelling`: the kind by tag and by spelling.
* `Moment`, `Moment.read?`: dates and times.
-/

namespace ProviderCatalog.Yaml

/-- What a node denotes. -/
inductive Kind where
  | null
  | truth
  | integer
  | real
  | moment
  | bytes
  | text
  | list
  | mapping
  | set
  /-- A list of mappings with one entry each. -/
  | pairs
  /-- The key whose value is merged into the mapping around it. -/
  | merge
  /-- The key for the value that stands for the whole mapping. -/
  | standIn
  | unknown
deriving DecidableEq, Repr

/-! ### Tags -/

/-- What the tags of the standard kinds begin with. -/
def standardTags : List Char := "tag:yaml.org,2002:".toList

/-- The standard kinds. -/
def standardKinds : List (List Char × Kind) := [
  ("null".toList, .null), ("bool".toList, .truth), ("int".toList, .integer),
  ("float".toList, .real), ("timestamp".toList, .moment), ("binary".toList, .bytes),
  ("str".toList, .text), ("seq".toList, .list), ("map".toList, .mapping), ("set".toList, .set),
  ("omap".toList, .pairs), ("pairs".toList, .pairs), ("merge".toList, .merge),
  ("value".toList, .standIn)]

/-- The kind with a tag. -/
def Kind.ofTag (tag : List Char) : Kind :=
  if standardTags.isPrefixOf tag then
    (standardKinds.lookup (tag.drop standardTags.length)).getD .unknown
  else .unknown

/-! ### Dates and times -/

/-- A date, and a time if there is one. -/
structure Moment where
  year : Nat
  month : Nat
  day : Nat
  /-- The hour, the minute and the second. -/
  time : Option (Nat × Nat × Nat)

/-- One or two digits in front of the rest, at least `least` of them. -/
def shortNumber? (least : Nat) : List Char → Option (Nat × List Char)
  | a :: b :: cs =>
    if !a.isDigit then none
    else if b.isDigit then some (10 * (a.toNat - 0x30) + (b.toNat - 0x30), cs)
    else if least ≤ 1 then some (a.toNat - 0x30, b :: cs)
    else none
  | [a] => if a.isDigit && least ≤ 1 then some (a.toNat - 0x30, []) else none
  | [] => none

/-- The rest behind a given character. -/
def behind? (c : Char) : List Char → Option (List Char)
  | d :: cs => if c = d then some cs else none
  | [] => none

/-- Whether nothing is left but an offset from universal time. -/
def isOffset (cs : List Char) : Bool :=
  cs.isEmpty || match cs.dropWhile fun c => c = ' ' || c = '\t' with
    | ['Z'] => true
    | s :: rest =>
      (s = '+' || s = '-') && match shortNumber? 1 rest with
        | none => false
        | some (_, more) => more.isEmpty
          || ((behind? ':' more).bind (shortNumber? 2)).any (·.2.isEmpty)
    | [] => false

/-- A time of day up to the end. -/
def readTime? (cs : List Char) : Option (Nat × Nat × Nat) := do
  let (hour, cs) ← shortNumber? 1 cs
  let (minute, cs) ← (behind? ':' cs).bind (shortNumber? 2)
  let (second, cs) ← (behind? ':' cs).bind (shortNumber? 2)
  let cs := match cs with
    | '.' :: cs => cs.dropWhile Char.isDigit
    | cs => cs
  if isOffset cs then some (hour, minute, second) else none

/-- A date with an optional time of day. -/
def Moment.read? (cs : List Char) : Option Moment := do
  let (century, cs) ← shortNumber? 2 cs
  let (year, cs) ← shortNumber? 2 cs
  let (month, cs) ← (behind? '-' cs).bind (shortNumber? 1)
  let (day, cs) ← (behind? '-' cs).bind (shortNumber? 1)
  let date : Moment := ⟨100 * century + year, month, day, none⟩
  match cs with
  | [] => some date
  | c :: rest =>
    let rest ←
      if c = 'T' || c = 't' then some rest
      else if c = ' ' || c = '\t' then some (rest.dropWhile fun c => c = ' ' || c = '\t')
      else none
    let time ← readTime? rest
    some { date with time }

/-- Whether the spelling of a date is complete: without a time, no digit may be missing. -/
def isMoment (cs : List Char) : Bool :=
  (Moment.read? cs).any fun m => m.time.isSome || cs.length = 10

/-! ### Spellings -/

/-- The words for truth values, in lower case. -/
def truthWords : List (Text × Bool) :=
  [("yes", true), ("no", false), ("true", true), ("false", false), ("on", true), ("off", false)]

/-- A word with a capital first letter. -/
def capitalized : List Char → List Char
  | [] => []
  | c :: cs => c.toUpper :: cs

/-- Whether a spelling is a word of lower-case letters, the word with a capital, or the word in
capitals. -/
def isWord (word cs : List Char) : Bool :=
  cs = word || cs = capitalized word || cs = word.map Char.toUpper

/-- Whether a list of characters is not empty and all of a class. -/
def areAll (p : Char → Bool) (cs : List Char) : Bool := !cs.isEmpty && cs.all p

/-- Whether a character is an underscore or a digit below a number. -/
def isFiller (digits : Nat) (c : Char) : Bool :=
  c = '_' || ('0' ≤ c && c.toNat < 0x30 + digits)

/-- Whether a character is an underscore or a hexadecimal digit. -/
def isHexFiller (c : Char) : Bool :=
  isFiller 10 c || ('a' ≤ c && c ≤ 'f') || ('A' ≤ c && c ≤ 'F')

/-- A spelling without a sign in front. -/
def withoutSign : List Char → List Char
  | '+' :: cs | '-' :: cs => cs
  | cs => cs

/-- The parts between colons. -/
def colonParts (cs : List Char) : List (List Char) := cs.splitOnP (· = ':')

/-- Whether a part between colons is a number below sixty. -/
def isSixtieth : List Char → Bool
  | [a] => a.isDigit
  | [a, b] => '0' ≤ a && a ≤ '5' && b.isDigit
  | _ => false

/-- Whether a spelling is that of a number with sixty as its base, of which there is more than one
place. -/
def isSexagesimal (cs : List Char) : Bool :=
  match colonParts cs with
  | whole :: place :: places =>
    (whole.headD '_').isDigit && areAll (isFiller 10) whole && (place :: places).all isSixtieth
  | _ => false

/-- Whether a spelling is that of an integer. -/
def isInteger (cs : List Char) : Bool :=
  match withoutSign cs with
  | '0' :: 'b' :: ds => areAll (isFiller 2) ds
  | '0' :: 'x' :: ds => areAll isHexFiller ds
  | '0' :: ds => ds.all (isFiller 8)
  | c :: ds => c.isDigit && (ds.all (isFiller 10) || isSexagesimal (c :: ds))
  | [] => false

/-- Whether nothing is left but an exponent with a sign. -/
def isExponent : List Char → Bool
  | [] => true
  | e :: s :: ds => (e = 'e' || e = 'E') && (s = '+' || s = '-') && areAll Char.isDigit ds
  | _ => false

/-- Whether a spelling is that of a number with a point. -/
def isReal (cs : List Char) : Bool :=
  let unsigned := withoutSign cs
  let (whole, fraction) := unsigned.span (· != '.')
  match fraction with
  | [] => false
  | _ :: fraction =>
    let more := fraction.dropWhile (isFiller 10)
    if whole.isEmpty then
      isWord "inf".toList fraction
        || (cs.head? = some '.' && (fraction = "nan".toList || fraction = "NaN".toList
          || fraction = "NAN".toList || ((fraction.headD '_').isDigit && isExponent more)))
    else
      (whole.headD '_').isDigit && (whole.all (isFiller 10) && isExponent more)
        || (isSexagesimal whole && more.isEmpty)

/-- A spelling without one line break at its end. -/
def withoutFinalBreak (cs : List Char) : List Char :=
  if 1 < cs.length && cs.getLast? = some '\n' then cs.dropLast else cs

/-- The kind that a spelling suggests. -/
def Kind.ofChars (cs : List Char) : Kind :=
  if truthWords.any fun w => w.1.toChars?.any (isWord · cs) then .truth
  else if isReal cs then .real
  else if isInteger cs then .integer
  else if cs = ['<', '<'] then .merge
  else if cs = [] || cs = ['~'] || isWord "null".toList cs then .null
  else if isMoment cs then .moment
  else if cs = ['='] then .standIn
  else if cs = ['!'] || cs = ['&'] || cs = ['*'] then .unknown
  else .text

/-- The kind that the spelling of a scalar suggests. -/
def Kind.ofSpelling (t : Text) : Kind :=
  match t.toChars? with
  | some cs => .ofChars (withoutFinalBreak cs)
  | none => .text

end ProviderCatalog.Yaml
