import ProviderCatalog.Number.Binary64
import ProviderCatalog.Text.Blank
import ProviderCatalog.Text.Digit
import ProviderCatalog.Text.EncodingFault

/-!
# Decimal notations

Numbers are spelt with decimal digits, after a sign if there is one; binary numbers also with a
point and an exponent. An integer that is written as a text or as a byte string may have blanks
around it, and single underscores between its digits, which in a text are those of any script.

## Main definitions

* `Decimal.splitSign`, `Decimal.splitTextSign`: a sign and what follows it.
* `Decimal.ofText`, `Decimal.ofBytes`: the integers that texts and byte strings spell.
* `Decimal.IntegerFault`: why a spelling denotes no integer.
* `Decimal.ofDigits`: the number that digits spell.
* `Decimal.maxDigits`, `Decimal.excessMessage`: how many digits an integer may have.
* `Decimal.readReal?`: the binary number nearest to a notation.
-/

namespace ProviderCatalog.Decimal

/-- A number's sign, which is true for a minus sign, and what follows it. -/
def splitSign : List Char → Bool × List Char
  | '-' :: cs => (true, cs)
  | '+' :: cs => (false, cs)
  | cs => (false, cs)

/-- The sign of a number that is written as a text, and the text behind it. -/
def splitTextSign : Text → Bool × Text
  | .scalar '-' :: t => (true, t)
  | .scalar '+' :: t => (false, t)
  | t => (false, t)

/-- The most decimal digits that an integer may have. -/
def maxDigits : Nat := 4300

/-- The message about an integer that has more digits. -/
def excessMessage (count : Nat) : Text :=
  ("Exceeds the limit (" : Text) ++ Text.ofNat maxDigits
    ++ " digits) for integer string conversion: value has " ++ Text.ofNat count
    ++ " digits; use sys.set_int_max_str_digits() to increase the limit"

/-- The number that a list of decimal digits spells. -/
def ofDigits (ds : List Char) : Nat := ds.foldl (fun n c => 10 * n + (c.toNat - 0x30)) 0

/-- An integer with the given sign. -/
def signed (negative : Bool) (n : Nat) : Int := if negative then -n else n

/-! ### Integers in texts -/

/-- Why a spelling denotes no integer. -/
inductive IntegerFault where
  /-- Something else is spelt, which is shown like this. -/
  | unreadable (shown : Text)
  | tooLong (digits : Nat)
deriving DecidableEq, Repr

/-- The message of a fault. -/
def IntegerFault.message : IntegerFault → Text
  | unreadable shown => ("invalid literal for int() with base 10: " : Text) ++ shown
  | tooLong digits => excessMessage digits

/-- The length up to which a spelling of a number is shown. -/
def maxShown : Nat := 200

/-- The values of decimal digits of any script, among which single underscores may stand. -/
def digitValues? : Text → Option (List Nat)
  | [] => none
  | p :: t =>
    match p.digitValue? with
    | none => none
    | some d =>
      match t with
      | [] => some [d]
      | .scalar '_' :: t => (digitValues? t).map (d :: ·)
      | p :: t => (digitValues? (p :: t)).map (d :: ·)

/-- The integer that a text spells, which is shown like `shown`. An excess of digits is told before
what stands behind the digits is looked at. -/
def readInteger (shown : Text) (t : Text) : Except IntegerFault Int :=
  let (negative, t) := splitTextSign t.unpadded
  let digits := t.takeWhile fun p => p.isDigit || p == .scalar '_'
  match digitValues? digits with
  | none => .error (.unreadable shown)
  | some ds =>
    if maxDigits < ds.length then .error (.tooLong ds.length)
    else if digits.length < t.length then .error (.unreadable shown)
    else .ok (signed negative (ds.foldl (fun n d => 10 * n + d) 0))

/-- The integer that a text spells. -/
def ofText (t : Text) : Except IntegerFault Int := readInteger (t.inQuotes.take maxShown) t

/-- A byte as the character that it stands for in a number, if it does. -/
def byteCharacter (b : UInt8) : CodePoint :=
  if b < 0x80 then .scalar (Char.ofNat b.toNat) else .surrogate 0

/-- The integer that a byte string spells. -/
def ofBytes (bs : Bytes) : Except IntegerFault Int :=
  readInteger ((Bytes.inQuotes (bs.take maxShown)).take maxShown) (bs.map byteCharacter)

/-! ### Binary numbers -/

/-- The binary number spelt by a plain or scientific notation. -/
def readReal? (negative : Bool) (cs : List Char) : Option Binary64 :=
  let (whole, rest) := cs.span Char.isDigit
  let (fraction, rest) := match rest with
    | '.' :: r => r.span Char.isDigit
    | r => ([], r)
  let digits := whole ++ fraction
  let scale : Int := -(fraction.length : Int)
  if digits.isEmpty then none
  else match rest with
    | [] => some (.ofDecimal negative (ofDigits digits) scale)
    | e :: r =>
      if e = 'e' || e = 'E' then
        let (minus, ds) := splitSign r
        if ds.isEmpty || !ds.all Char.isDigit then none
        else some (.ofDecimal negative (ofDigits digits) (scale + signed minus (ofDigits ds)))
      else none

/-- The binary number spelt by a notation or by one of the words for the numbers that are not
finite. -/
def readAnyReal? (cs : List Char) : Option Binary64 :=
  let (negative, rest) := splitSign cs
  let word := rest.map Char.toLower
  if word = "inf".toList || word = "infinity".toList then some (.infinite negative)
  else if word = "nan".toList then some .nan
  else readReal? negative rest

end ProviderCatalog.Decimal
