import ProviderCatalog.Number.Decimal

/-!
# Faults of YAML documents

A document is malformed, or it is well formed and holds a scalar whose spelling fits its type but
denotes nothing.

## Main definitions

* `Fault`, `Fault.message`: the faults and their messages.
-/

namespace ProviderCatalog.Yaml

/-- Why a document cannot be read. -/
inductive Fault where
  | malformed
  /-- An escape by a number that no code point has. -/
  | noCodePoint (n : Nat)
  /-- A number without a single digit or sign. -/
  | emptyNumber
  | noInteger (base : Nat) (t : Text)
  | tooManyDigits (count : Nat)
  | noReal (t : Text)
  | noTruthValue (t : Text)
  /-- A text that is said to be a time and does not look like one. -/
  | noMoment
  /-- A date or a time of day that does not exist. -/
  | momentOutOfRange (reason : String)
deriving DecidableEq, Repr

/-- The largest number that a code point is looked for by. -/
def largestNumber : Nat := 0x7FFFFFFF

/-- The message of a fault. -/
def Fault.message : Fault → Text
  | malformed => "malformed document"
  | noCodePoint n =>
    if n ≤ largestNumber then "chr() arg not in range(0x110000)"
    else "Python int too large to convert to C int"
  | emptyNumber => "string index out of range"
  | noInteger base t =>
    ("invalid literal for int() with base " : Text) ++ Text.ofNat base ++ ": "
      ++ t.inQuotes.take Decimal.maxShown
  | tooManyDigits count => Decimal.excessMessage count
  | noReal t => ("could not convert string to float: " : Text) ++ t.inQuotes
  | noTruthValue t => t.inQuotes
  | noMoment => "'NoneType' object has no attribute 'groupdict'"
  | momentOutOfRange reason => reason

end ProviderCatalog.Yaml
