import ProviderCatalog.Yaml.Node
import ProviderCatalog.Datum
import ProviderCatalog.Number.Decimal
import ProviderCatalog.Calendar.Date
import ProviderCatalog.Text.Blank
import ProviderCatalog.Text.Case
import ProviderCatalog.Text.Digit
import ProviderCatalog.Text.Search
import ProviderCatalog.Bytes.Base64

/-!
# Values of scalars

## Main definitions

* `integerOf`, `realOf`, `checkMoment`: numbers and moments by their spelling.
* `Kind.value`: the value of a scalar of some kind.
-/

namespace ProviderCatalog.Yaml

/-! ### Integers -/

/-- The value of a digit of a base of at most sixteen. -/
def placeValue? (base : Nat) (p : CodePoint) : Option Nat :=
  let v := p.digitValue? <|> p.toChar?.bind hexValue?
  v.filter (· < base)

/-- The number that the digits of a base spell. -/
def natOf? (base : Nat) (t : Text) : Option Nat :=
  if t.isEmpty then none
  else (t.mapM (placeValue? base)).map (·.foldl (fun n d => base * n + d) 0)

/-- The letters that can stand for a base behind a zero. -/
def baseLetters (base : Nat) : List CodePoint :=
  if base = 2 then [.scalar 'b', .scalar 'B']
  else if base = 8 then [.scalar 'o', .scalar 'O']
  else if base = 16 then [.scalar 'x', .scalar 'X']
  else []

/-- Digits without the mark of their base in front. -/
def withoutBase (base : Nat) : Text → Text
  | .scalar '0' :: p :: t => if (baseLetters base).contains p then t else .scalar '0' :: p :: t
  | t => t

/-- The integer that a text spells in a base, blanks around it apart. -/
def integerOf (base : Nat) (t : Text) : Except Fault Int :=
  let (negative, ds) := Decimal.splitTextSign t.trim
  match natOf? base (withoutBase base ds) with
  | none => .error (.noInteger base t)
  | some n =>
    if base = 10 && Decimal.maxDigits < ds.length then .error (.tooManyDigits ds.length)
    else .ok (Decimal.signed negative n)

/-- The number with the given places to the base of sixty. -/
def sexagesimal {α : Type} [Add α] [Mul α] [NatCast α] (places : List α) : α :=
  places.foldl (fun n d => ((60 : Nat) : α) * n + d) ((0 : Nat) : α)

/-- A text without underscores. -/
def withoutUnderscores (t : Text) : Text := t.erase (.scalar '_')

/-- The integer of a scalar. -/
def integerValue (t : Text) : Except Fault Int := do
  let t := withoutUnderscores t
  if t.isEmpty then throw .emptyNumber
  let (negative, ds) := Decimal.splitTextSign t
  let n ←
    if ds.startsWith "0b" then integerOf 2 (ds.drop 2)
    else if ds.startsWith "0x" then integerOf 16 (ds.drop 2)
    else match ds with
      | [] => throw .emptyNumber
      | .scalar '0' :: _ => integerOf 8 ds
      | _ =>
        if ds.contains ":" then
          sexagesimal <$> (ds.splitOn (.scalar ':')).mapM (integerOf 10)
        else integerOf 10 ds
  return if negative then -n else n

/-! ### Binary numbers -/

/-- The binary number that a text spells, blanks around it apart. -/
def realOf (t : Text) : Except Fault Binary64 :=
  match t.trim.toChars?.bind Decimal.readAnyReal? with
  | some x => .ok x
  | none => .error (.noReal t)

/-- The binary number of the other sign. -/
def negated : Binary64 → Binary64
  | .nan => .nan
  | .infinite negative => .infinite (!negative)
  | .finite negative m e => .finite (!negative) m e

/-- The binary number of a scalar. -/
def realValue (t : Text) : Except Fault Binary64 := do
  let t := (withoutUnderscores t).lower
  if t.isEmpty then throw .emptyNumber
  let (negative, ds) := Decimal.splitTextSign t
  let x ←
    if ds = (".inf" : Text) then pure (.infinite false)
    else if ds = (".nan" : Text) then pure .nan
    else if ds.contains ":" then do
      let places ← (ds.splitOn (.scalar ':')).mapM realOf
      match places.mapM Binary64.toRat? with
      | some qs => pure (.ofRat (sexagesimal qs))
      | none => pure .nan
    else realOf ds
  return if negative then negated x else x

/-! ### Moments -/

/-- Checks that a date and a time of day exist. -/
def checkMoment (m : Moment) : Except Fault Unit := do
  if m.year < 1 then
    throw (.momentOutOfRange ("year " ++ toString m.year ++ " is out of range"))
  if m.month < 1 || 12 < m.month then throw (.momentOutOfRange "month must be in 1..12")
  if m.day < 1 || daysInMonth m.year m.month < m.day then
    throw (.momentOutOfRange "day is out of range for month")
  if let some (hour, minute, second) := m.time then
    if 23 < hour then throw (.momentOutOfRange "hour must be in 0..23")
    if 59 < minute then throw (.momentOutOfRange "minute must be in 0..59")
    if 59 < second then throw (.momentOutOfRange "second must be in 0..59")

/-- Checks that a text spells a moment that exists. -/
def checkMomentText (t : Text) : Except Fault Unit :=
  match (t.toChars?.map withoutFinalBreak).bind Moment.read? with
  | some m => checkMoment m
  | none => .error .noMoment

/-! ### Scalars -/

/-- The value of a scalar of some kind. -/
def Kind.value (k : Kind) (t : Text) : Except Fault Datum :=
  match k with
  | .null => .ok .null
  | .truth =>
    match truthWords.lookup t.lower with
    | some b => .ok (.bool b)
    | none => .error (.noTruthValue t.lower)
  | .integer => (integerValue t).map .int
  | .real => (realValue t).map .real
  | .moment => (checkMomentText t).map fun _ => .moment
  | .bytes =>
    match Base64.decode t with
    | .ok bs => .ok (.bytes bs)
    | .error _ => .error .malformed
  | .text => .ok (.text t)
  | .list | .mapping | .set | .pairs | .merge | .standIn | .unknown => .error .malformed

end ProviderCatalog.Yaml
