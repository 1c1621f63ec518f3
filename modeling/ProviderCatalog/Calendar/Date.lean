import ProviderCatalog.Text.Basic

/-!
# Calendar dates

A date of the Gregorian calendar in the years 1 to 9999, written with four digits for the year and
two each for month and day.

## Main definitions

* `Date`: dates that exist.
* `Date.ofNumbers?`: the date with given numbers, if it exists.
* `Date.toText`: the written form of a date.
-/

namespace ProviderCatalog

/-- Whether a year has a 29 February. -/
def isLeapYear (year : Nat) : Bool := year % 4 == 0 && (year % 100 != 0 || year % 400 == 0)

/-- The number of days of a month. -/
def daysInMonth (year month : Nat) : Nat :=
  if month = 2 then (if isLeapYear year then 29 else 28)
  else if month ∈ [4, 6, 9, 11] then 30
  else 31

/-- Whether a year, a month and a day make a date of the years 1 to 9999. -/
def IsDate (year month day : Nat) : Prop :=
  1 ≤ year ∧ year ≤ 9999 ∧ 1 ≤ month ∧ month ≤ 12 ∧ 1 ≤ day ∧ day ≤ daysInMonth year month

instance (year month day : Nat) : Decidable (IsDate year month day) := by
  unfold IsDate; infer_instance

/-- A date of the years 1 to 9999. -/
structure Date where
  year : Nat
  month : Nat
  day : Nat
  exists_date : IsDate year month day
deriving DecidableEq

namespace Date

/-- The date with the given numbers, if there is one. -/
def ofNumbers? (year month day : Nat) : Option Date :=
  if h : IsDate year month day then some ⟨year, month, day, h⟩ else none

/-- A number with zeros in front up to a width. -/
def padded (width n : Nat) : Text :=
  let ds := Text.ofNat n
  List.replicate (width - ds.length) (.scalar '0') ++ ds

/-- The date as year, month and day with hyphens between them. -/
def toText (d : Date) : Text :=
  padded 4 d.year ++ "-" ++ padded 2 d.month ++ "-" ++ padded 2 d.day

end Date

end ProviderCatalog
