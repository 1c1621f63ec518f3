import ProviderCatalog.Text.Basic

/-!
# Binary floating-point numbers

A binary64 number is a sign, a mantissa below `2 ^ 53` and an exponent of two, or an infinity, or
not a number. Numbers are rounded from fractions to the nearest such value, a tie going to the even
mantissa, and written with the fewest decimal digits that read back.

## Main definitions

* `Binary64`: the numbers.
* `Binary64.ofFraction`, `Binary64.ofDecimal`: rounding to nearest, ties to even.
* `Binary64.toRat?`: the exact value of a finite number.
* `Binary64.shortestDigits`, `Binary64.toText`: the shortest decimal spelling.
-/

namespace ProviderCatalog

/-- A binary64 number. The finite number with mantissa `m` and exponent `e` is `m * 2 ^ e` up to its
sign; `m` is at least `2 ^ 52` unless `e` is the least exponent `-1074`. -/
inductive Binary64 where
  | finite (negative : Bool) (mantissa : Nat) (exponent : Int)
  | infinite (negative : Bool)
  | nan
deriving DecidableEq, Inhabited, Repr

namespace Binary64

/-- The quotient rounded to the nearest natural number, a tie going to the even one. -/
def divNearestEven (n d : Nat) : Nat :=
  let q := n / d
  let r := n % d
  if 2 * r < d then q else if d < 2 * r then q + 1 else q + q % 2

/-- The fraction `n * b ^ e / d` as a numerator and a denominator. -/
def scaled (b n d : Nat) (e : Int) : Nat × Nat :=
  match e with
  | .ofNat k => (n * b.pow k, d)
  | .negSucc k => (n, d * b.pow (k + 1))

/-- The greatest `k` with `2 ^ k ≤ n / d`, for positive `n` and `d`. -/
def floorLog2 (n d : Nat) : Int :=
  let k : Int := (n.log2 : Int) - d.log2
  let (a, b) := scaled 2 n d (-k)
  if b ≤ a then k else k - 1

/-- The number nearest to the fraction `n / d`, up to the sign. -/
def ofFraction (negative : Bool) (n d : Nat) : Binary64 :=
  if n = 0 then finite negative 0 (-1074)
  else
    let e := max (floorLog2 n d - 52) (-1074)
    let (a, b) := scaled 2 n d (-e)
    let m := divNearestEven a b
    let (m, e) := if m = 1 <<< 53 then (1 <<< 52, e + 1) else (m, e)
    if 971 < e then infinite negative else finite negative m e

/-- The number of decimal digits of a natural number. -/
def digitCount (n : Nat) : Nat := (toString n).length

/-- The number nearest to `n * 10 ^ e`, up to the sign. Beyond the range of the finite numbers the
power is not computed. -/
def ofDecimal (negative : Bool) (n : Nat) (e : Int) : Binary64 :=
  let magnitude := (digitCount n : Int) + e
  if n = 0 || magnitude < -400 then finite negative 0 (-1074)
  else if 400 < magnitude then infinite negative
  else
    let (a, b) := scaled 10 n 1 e
    ofFraction negative a b

/-- The exact value of a finite number. -/
def toRat? : Binary64 → Option Rat
  | finite negative m e =>
    let v : Rat := match e with
      | .ofNat k => (m <<< k : Nat)
      | .negSucc k => mkRat m (1 <<< (k + 1))
    some (if negative then -v else v)
  | _ => none

/-- The number nearest to a rational number. -/
def ofRat (q : Rat) : Binary64 := ofFraction (q.num < 0) q.num.natAbs q.den

/-- The greatest `k` with `10 ^ k ≤ n / d`, searched downwards from `k`. -/
def floorLog10From (n d : Nat) : Nat → Int → Int
  | 0, k => k
  | fuel + 1, k =>
    let (a, b) := scaled 10 n d (-k)
    if b ≤ a then k else floorLog10From n d fuel (k - 1)

/-- Of the two neighbours of `n / d` on the grid `10 ^ k` that read back as `x`, the nearer one. -/
def gridPoint? (x : Binary64) (negative : Bool) (n d : Nat) (k : Int) : Option Nat :=
  let (a, b) := scaled 10 n d (-k)
  let q := a / b
  let r := a % b
  let low := ofDecimal negative q k = x
  let high := ofDecimal negative (q + 1) k = x
  if low && high then some (if 2 * r < b then q else if b < 2 * r then q + 1 else q + q % 2)
  else if low then some q
  else if high then some (q + 1)
  else none

/-- The first grid, from coarse to fine, with a point that reads back as `x`. -/
def firstGrid (x : Binary64) (negative : Bool) (n d : Nat) (top : Int) :
    List Nat → Option (Nat × Int)
  | [] => none
  | digits :: rest =>
    let k := top - digits
    match gridPoint? x negative n d k with
    | some q => some (q, k)
    | none => firstGrid x negative n d top rest

/-- The fewest digits `q` with an exponent `k` such that `q * 10 ^ k` reads back as `m * 2 ^ e`. -/
def shortestDigits (negative : Bool) (m : Nat) (e : Int) : Nat × Int :=
  if m = 0 then (0, 0)
  else
    let (n, d) := scaled 2 m 1 e
    let top := floorLog10From n d 700 ((digitCount n : Int) - digitCount d + 1)
    (firstGrid (finite negative m e) negative n d top (List.range 17)).getD (0, 0)

/-- Drops the trailing zeros of a number's digits, raising its exponent. -/
def trimZeros : Nat → Nat → Int → Nat × Int
  | 0, q, k => (q, k)
  | fuel + 1, q, k => if q ≠ 0 && q % 10 = 0 then trimZeros fuel (q / 10) (k + 1) else (q, k)

/-- A sequence of digits with a point in it, or an exponent where the point would stand left of
`10 ^ (-4)` or right of `10 ^ 16`. -/
def placePoint (q : Nat) (k : Int) : String :=
  let ds := (toString q).toList
  let point : Int := ds.length + k
  if -4 < point && point ≤ 16 then
    if point ≤ 0 then
      "0." ++ String.ofList (List.replicate (-point).toNat '0' ++ ds)
    else if 0 ≤ k then
      String.ofList (ds ++ List.replicate k.toNat '0') ++ ".0"
    else
      String.ofList (ds.take point.toNat) ++ "." ++ String.ofList (ds.drop point.toNat)
  else
    let e := point - 1
    let mantissa := match ds with
      | [] => ""
      | [c] => String.ofList [c]
      | c :: rest => String.ofList (c :: '.' :: rest)
    let digits := toString e.natAbs
    mantissa ++ (if e < 0 then "e-" else "e+") ++ (if digits.length < 2 then "0" else "") ++ digits

/-- The shortest decimal spelling of a number. -/
def toText : Binary64 → String
  | nan => "nan"
  | infinite negative => if negative then "-inf" else "inf"
  | finite negative m e =>
    let sign := if negative then "-" else ""
    let (q, k) := shortestDigits negative m e
    let (q, k) := trimZeros 400 q k
    if m = 0 then sign ++ "0.0" else sign ++ placePoint q k

end Binary64

end ProviderCatalog
