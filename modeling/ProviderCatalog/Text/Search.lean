import ProviderCatalog.Text.Basic

/-!
# Searching, cutting and replacing

Positions in a text count code points from the start. Occurrences are found from the left, or, for
the last one, from the right, and replacing takes non-overlapping occurrences from the left.

## Main definitions

* `Text.contains`, `Text.indexOf?`, `Text.lastIndexOf?`: whether and where a text occurs.
* `Text.cut?`, `Text.cutLast?`: the two sides of the first or last occurrence of a code point.
* `Text.splitOn`: the pieces between occurrences of a code point.
* `Text.replace`: every occurrence of a text replaced by another.
* `Text.dropPrefix`, `Text.dropSuffix`: a text without a beginning or an end, if it has it.
-/

namespace ProviderCatalog.Text

/-- Whether a text begins with another. -/
def startsWith (t p : Text) : Bool := p.isPrefixOf t

/-- Whether a text ends with another. -/
def endsWith (t s : Text) : Bool := s.isSuffixOf t

/-- The position of the first occurrence of `p` in a text. -/
def indexOf? (p : Text) : Text → Option Nat
  | [] => if p.isEmpty then some 0 else none
  | x :: t => if p.isPrefixOf (x :: t) then some 0 else (indexOf? p t).map (· + 1)

/-- Whether `p` occurs in a text. -/
def contains (t p : Text) : Bool := (indexOf? p t).isSome

/-- The position of the last occurrence of a code point. -/
def lastIndexOf? (p : CodePoint) (t : Text) : Option Nat :=
  (t.reverse.idxOf? p).map (t.length - 1 - ·)

/-- The sides of the first occurrence of a code point. -/
def cut? (p : CodePoint) : Text → Option (Text × Text)
  | [] => none
  | x :: t => if x == p then some ([], t) else (cut? p t).map fun (a, b) => (x :: a, b)

/-- The sides of the last occurrence of a code point. -/
def cutLast? (p : CodePoint) : Text → Option (Text × Text)
  | [] => none
  | x :: t =>
    match cutLast? p t with
    | some (a, b) => some (x :: a, b)
    | none => if x == p then some ([], t) else none

/-- The pieces between the occurrences of a code point, at least one. -/
def splitOn (p : CodePoint) : Text → List Text
  | [] => [[]]
  | x :: t =>
    if x == p then [] :: splitOn p t
    else match splitOn p t with
      | [] => [[x]]
      | piece :: rest => (x :: piece) :: rest

/-- The text without a given beginning, if it has it. -/
def dropPrefix? (t p : Text) : Option Text :=
  if p.isPrefixOf t then some (t.drop p.length) else none

/-- The text without a given beginning, or itself. -/
def dropPrefix (t p : Text) : Text := (t.dropPrefix? p).getD t

/-- The text without a given end, if it has it. -/
def dropSuffix? (t s : Text) : Option Text :=
  if s.isSuffixOf t then some (t.take (t.length - s.length)) else none

/-- The text without a given end, or itself. -/
def dropSuffix (t s : Text) : Text := (t.dropSuffix? s).getD t

/-- Every occurrence of `p` replaced by `q`, where the first `skip` code points belong to an
occurrence that has been replaced already. -/
def replaceFrom (p q : Text) : Nat → Text → Text
  | _, [] => []
  | skip + 1, _ :: t => replaceFrom p q skip t
  | 0, x :: t =>
    if p.isPrefixOf (x :: t) then q ++ replaceFrom p q (p.length - 1) t
    else x :: replaceFrom p q 0 t

/-- Every occurrence of a non-empty text `p` replaced by `q`, from the left. -/
def replace (t p q : Text) : Text := replaceFrom p q 0 t

/-- The text without the occurrences of a code point. -/
def erase (t : Text) (p : CodePoint) : Text := t.filter (· != p)

end ProviderCatalog.Text
