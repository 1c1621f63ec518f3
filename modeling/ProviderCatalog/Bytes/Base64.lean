import ProviderCatalog.Text.Utf8

/-!
# Base64 read leniently

Every four digits of the base-64 alphabet spell three bytes. The lenient reading passes over
characters outside the alphabet. Padding counts only where it completes a group of four that has at
least two digits, and what follows such padding is ignored.

## Main definitions

* `Base64.Fault`: why a text spells no bytes.
* `Base64.decode`: the bytes that a text spells, if its digits and padding make whole groups.
-/

namespace ProviderCatalog.Base64

/-- Why a text spells no bytes. -/
inductive Fault where
  /-- The text has a code point that is no ASCII character. -/
  | notAscii
  /-- The last group is incomplete. -/
  | incomplete
deriving DecidableEq, Repr

/-- The value of a digit of the alphabet. -/
def digit? (c : Char) : Option Nat :=
  if 'A' ≤ c && c ≤ 'Z' then some (c.toNat - 0x41)
  else if 'a' ≤ c && c ≤ 'z' then some (c.toNat - 0x47)
  else if '0' ≤ c && c ≤ '9' then some (c.toNat + 4)
  else if c == '+' then some 62
  else if c == '/' then some 63
  else none

/-- A group of at most three digits that is still open, with the number of padding characters seen
since its last digit. -/
structure Group where
  count : Nat
  value : Nat
  padding : Nat

/-- The group before its first digit. -/
def Group.start : Group := ⟨0, 0, 0⟩

/-- The bytes that the digits of a group spell, its unused bits dropped. -/
def Group.bytes (g : Group) : Bytes :=
  match g.count with
  | 2 => [UInt8.ofNat (g.value / 16)]
  | 3 => [UInt8.ofNat (g.value / 1024), UInt8.ofNat (g.value / 4)]
  | 4 => [UInt8.ofNat (g.value / 65536), UInt8.ofNat (g.value / 256), UInt8.ofNat g.value]
  | _ => []

/-- The bytes that the rest of a text spells, after `found` bytes, the last one first, and the open
group `g`. -/
def decodeFrom? (found : Bytes) (g : Group) : List Char → Option Bytes
  | [] => if g.count = 0 then some found.reverse else none
  | c :: cs =>
    if c == '=' then
      let g := if 2 ≤ g.count then { g with padding := g.padding + 1 } else g
      if 2 ≤ g.count && 4 ≤ g.count + g.padding then some (found.reverse ++ g.bytes)
      else decodeFrom? found g cs
    else match digit? c with
      | none => decodeFrom? found g cs
      | some d =>
        let g : Group := ⟨g.count + 1, 64 * g.value + d, 0⟩
        if g.count = 4 then decodeFrom? (g.bytes.reverse ++ found) .start cs
        else decodeFrom? found g cs

/-- The bytes that a text spells. -/
def decode (t : Text) : Except Fault Bytes :=
  match t.toChars? with
  | none => .error .notAscii
  | some cs =>
    if !cs.all (·.toNat < 128) then .error .notAscii
    else match decodeFrom? [] .start cs with
      | some bs => .ok bs
      | none => .error .incomplete

end ProviderCatalog.Base64
