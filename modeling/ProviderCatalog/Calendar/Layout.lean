import ProviderCatalog.Calendar.Date
import ProviderCatalog.Text.Blank
import ProviderCatalog.Text.Digit

/-!
# Layouts of written dates

A date can be written in one of four layouts: numbers with hyphens, month, day and year with the
month's full or short name, or day, month and year. A layout is a sequence of parts, each of which
takes the longest beginning of the text that it can. Blanks in a layout stand for one or more blanks,
digits of every script count, month names come in any case, and nothing may follow the date.

## Main definitions

* `DatePart`, `dateLayouts`: the parts and the four layouts.
* `Date.readLayout?`: the date that a text denotes in one layout.
* `Date.read?`: the date that a text denotes in the first layout that fits.
-/

namespace ProviderCatalog

/-- A part of a date layout. -/
inductive DatePart where
  | year
  | monthNumber
  | monthName
  | monthShortName
  | day
  | blanks
  | literal (c : Char)
deriving DecidableEq

/-- The names of the months in lower case. -/
def monthNames : List Text :=
  ["january", "february", "march", "april", "may", "june", "july", "august", "september",
    "october", "november", "december"]

/-- The layouts of dates, in the order in which they are tried. -/
def dateLayouts : List (List DatePart) := [
  [.year, .literal '-', .monthNumber, .literal '-', .day],
  [.monthName, .blanks, .day, .literal ',', .blanks, .year],
  [.monthShortName, .blanks, .day, .literal ',', .blanks, .year],
  [.day, .blanks, .monthName, .blanks, .year]]

/-- The numbers of a date found so far. -/
structure DateNumbers where
  year : Nat
  month : Nat
  day : Nat

namespace DatePart

/-- The value of an ASCII digit that is at least `low` and at most `high`. -/
def digitBetween? (low high : Nat) : CodePoint → Option Nat
  | .scalar c =>
    let n := c.toNat - 0x30
    if '0' ≤ c && c ≤ '9' && low ≤ n && n ≤ high then some n else none
  | .surrogate _ => none

/-- The number of a month: two digits from 01 to 12 or one from 1 to 9. -/
def takeMonth? : Text → Option (Nat × Text)
  | [] => none
  | [a] => (digitBetween? 1 9 a).map (·, [])
  | a :: b :: t =>
    match digitBetween? 0 1 a, digitBetween? 0 9 b with
    | some 1, some n =>
      if n ≤ 2 then some (10 + n, t) else some (1, b :: t)
    | some 0, some n => if n = 0 then none else some (n, t)
    | _, _ => (digitBetween? 1 9 a).map (·, b :: t)

/-- The number of a day: two digits from 01 to 31, the second of 10 to 29 of any script, or one
from 1 to 9, which a blank may precede. -/
def takeDay? : Text → Option (Nat × Text)
  | [] => none
  | [a] => (digitBetween? 1 9 a).map (·, [])
  | a :: b :: t =>
    match digitBetween? 0 9 a with
    | some 3 =>
      match digitBetween? 0 1 b with
      | some n => some (30 + n, t)
      | none => some (3, b :: t)
    | some 0 => (digitBetween? 1 9 b).map (·, t)
    | some k =>
      match (if k ≤ 2 then b.digitValue? else none) with
      | some n => some (10 * k + n, t)
      | none => some (k, b :: t)
    | none => if a == .scalar ' ' then (digitBetween? 1 9 b).map (·, t) else none

/-- A year of four digits. -/
def takeYear? (t : Text) : Option (Nat × Text) :=
  let ds := t.take 4
  if ds.length = 4 then (Text.digitsValue? ds).map (·, t.drop 4) else none

/-- Whether a text is a month name in any case. -/
def matchesName (name t : Text) : Bool :=
  t.map (fun
    | .scalar c => .scalar c.toLower
    | p => p) == name

/-- The month whose name begins the text; the names are numbered from `n` on. -/
def takeName? (n : Nat) : List Text → Text → Option (Nat × Text)
  | [], _ => none
  | name :: names, t =>
    if matchesName name (t.take name.length) then some (n, t.drop name.length)
    else takeName? (n + 1) names t

/-- The numbers and the rest of the text after one part. -/
def take? (ns : DateNumbers) (t : Text) : DatePart → Option (DateNumbers × Text)
  | year => (takeYear? t).map fun (n, r) => ({ ns with year := n }, r)
  | monthNumber => (takeMonth? t).map fun (n, r) => ({ ns with month := n }, r)
  | monthName => (takeName? 1 monthNames t).map fun (n, r) => ({ ns with month := n }, r)
  | monthShortName =>
    (takeName? 1 (monthNames.map (·.take 3)) t).map fun (n, r) => ({ ns with month := n }, r)
  | day => (takeDay? t).map fun (n, r) => ({ ns with day := n }, r)
  | blanks =>
    match t with
    | p :: r => if p.isBlank then some (ns, r.dropWhile CodePoint.isBlank) else none
    | [] => none
  | literal c =>
    match t with
    | p :: r => if p == .scalar c then some (ns, r) else none
    | [] => none

end DatePart

namespace Date

/-- The numbers that a text denotes in a layout, which has to use up the text. -/
def readParts? (ns : DateNumbers) (t : Text) : List DatePart → Option DateNumbers
  | [] => if t.isEmpty then some ns else none
  | part :: parts => (part.take? ns t).bind fun (ns, r) => readParts? ns r parts

/-- The date that a text denotes in a layout. -/
def readLayout? (t : Text) (layout : List DatePart) : Option Date :=
  (readParts? ⟨0, 0, 0⟩ t layout).bind fun ns => ofNumbers? ns.year ns.month ns.day

/-- The date that a text denotes in the first layout that fits. -/
def read? (t : Text) : Option Date := dateLayouts.findSome? (readLayout? t)

end Date

end ProviderCatalog
