import ProviderCatalog.Text.Basic

/-!
# Decimal digits

Decimal digits are the characters of Unicode's class of decimal digits, which come in runs of ten
in every script; numbers may be spelt with the digits of any script, also mixed.

## Main definitions

* `digitValue?`: the value of a decimal digit.
* `Text.digitsValue?`: the number that a non-empty run of decimal digits spells.
-/

namespace ProviderCatalog

/-- The numbers of the digits zero of all scripts. -/
def digitZeros : List Nat := [
  0x30, 0x660, 0x6F0, 0x7C0, 0x966, 0x9E6, 0xA66, 0xAE6, 0xB66, 0xBE6, 0xC66, 0xCE6, 0xD66, 0xDE6,
  0xE50, 0xED0, 0xF20, 0x1040, 0x1090, 0x17E0, 0x1810, 0x1946, 0x19D0, 0x1A80, 0x1A90, 0x1B50,
  0x1BB0, 0x1C40, 0x1C50, 0xA620, 0xA8D0, 0xA900, 0xA9D0, 0xA9F0, 0xAA50, 0xABF0, 0xFF10, 0x104A0,
  0x10D30, 0x11066, 0x110F0, 0x11136, 0x111D0, 0x112F0, 0x11450, 0x114D0, 0x11650, 0x116C0,
  0x11730, 0x118E0, 0x11950, 0x11C50, 0x11D50, 0x11DA0, 0x16A60, 0x16AC0, 0x16B50, 0x1D7CE,
  0x1D7D8, 0x1D7E2, 0x1D7EC, 0x1D7F6, 0x1E140, 0x1E2F0, 0x1E950, 0x1FBF0]

/-- The value of a decimal digit. -/
def digitValue? (c : Char) : Option Nat :=
  if c.toNat < 128 then
    if '0' ≤ c && c ≤ '9' then some (c.toNat - 0x30) else none
  else (digitZeros.find? fun z => z ≤ c.toNat && c.toNat < z + 10).map (c.toNat - ·)

/-- Whether a character is a decimal digit of some script. -/
def isDigitChar (c : Char) : Bool := (digitValue? c).isSome

namespace CodePoint

/-- The value of a decimal digit. -/
def digitValue? : CodePoint → Option Nat
  | scalar c => ProviderCatalog.digitValue? c
  | surrogate _ => none

/-- Whether a code point is a decimal digit of some script. -/
def isDigit : CodePoint → Bool := satisfies isDigitChar

end CodePoint

namespace Text

/-- The number spelt by decimal digits that follow digits of value `n`. -/
def digitsValueFrom (n : Nat) : Text → Option Nat
  | [] => some n
  | p :: t => p.digitValue?.bind fun d => digitsValueFrom (10 * n + d) t

/-- The number spelt by a non-empty run of decimal digits. -/
def digitsValue? (t : Text) : Option Nat :=
  if t.isEmpty then none else digitsValueFrom 0 t

end Text

end ProviderCatalog
