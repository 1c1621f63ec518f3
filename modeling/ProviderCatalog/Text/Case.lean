import ProviderCatalog.Text.CaseTable
import ProviderCatalog.Text.Blank

/-!
# Lower and upper case

A text is put into lower or upper case code point by code point with two exceptions: some code
points expand into several, and the lower case of a capital sigma depends on whether it ends a
word. Lone surrogates have no case.

## Main definitions

* `Text.lower`, `Text.upper`: a text in lower or upper case.
-/

namespace ProviderCatalog

namespace Text

/-- The image of a number under a table of runs; a number in no run stays. -/
def mapRuns (runs : List CaseRun) (n : Nat) : Nat :=
  match runs.find? (·.contains n) with
  | some r => ((n : Int) + r.offset).toNat
  | none => n

/-- Whether a number lies in one of a list of closed ranges. -/
def inRanges (ranges : List (Nat × Nat)) (n : Nat) : Bool :=
  ranges.any fun r => r.1 ≤ n && n ≤ r.2

/-- The lower case of a character, away from the end of a word. -/
def lowerChar (c : Char) : List Char :=
  if c.toNat < 128 then [c.toLower]
  else if c == 'İ' then ['i', '\u0307']
  else [Char.ofNat (mapRuns lowerRuns c.toNat)]

/-- The upper case of a character. -/
def upperChar (c : Char) : List Char :=
  if c.toNat < 128 then [c.toUpper]
  else match upperExpansions.lookup c.toNat with
    | some ns => ns.map Char.ofNat
    | none => [Char.ofNat (mapRuns upperRuns c.toNat)]

/-- Whether the nearest code point that case-ignoring does not skip is cased. -/
def meetsCased : Text → Bool
  | [] => false
  | .surrogate _ :: _ => false
  | .scalar c :: t =>
    if inRanges caseIgnorableRanges c.toNat then meetsCased t else inRanges casedRanges c.toNat

/-- The lower case of a text after the code points `before`, nearest first. A capital sigma is
final when a cased code point comes before it and none after it. -/
def lowerAfter (before : Text) : Text → Text
  | [] => []
  | p :: t =>
    match p with
    | .surrogate _ => p :: lowerAfter (p :: before) t
    | .scalar 'Σ' =>
      .scalar (if meetsCased before && !meetsCased t then 'ς' else 'σ') :: lowerAfter (p :: before) t
    | .scalar c => ofChars (lowerChar c) ++ lowerAfter (p :: before) t

/-- A text in lower case. -/
def lower (t : Text) : Text := lowerAfter [] t

/-- A text in upper case. -/
def upper (t : Text) : Text :=
  t.flatMap fun
    | .scalar c => ofChars (upperChar c)
    | .surrogate n => [.surrogate n]

end Text

end ProviderCatalog
