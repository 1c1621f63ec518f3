/-!
# Texts as lists of code points

A text is a finite list of code points. Besides the Unicode scalar values a code point can be one
half of a surrogate pair standing alone: escape sequences in foreign documents can spell such a
half, it travels through the catalog like any other code point, and only encoding it fails.

## Main definitions

* `CodePoint`, `CodePoint.value`: code points and their numbers.
* `Text`: lists of code points, with the coercion `Text.ofString` from character strings.
* `Text.toChars?`: the characters of a text without lone surrogates.
-/

namespace ProviderCatalog

/-- A code point: a character, or one half of a surrogate pair standing alone. -/
inductive CodePoint where
  /-- A Unicode scalar value. -/
  | scalar (c : Char)
  /-- The lone surrogate with the number `0xD800 + n`. -/
  | surrogate (n : Fin 2048)
deriving DecidableEq, Inhabited, Repr

namespace CodePoint

/-- The number of a code point. -/
def value : CodePoint → Nat
  | scalar c => c.toNat
  | surrogate n => 0xD800 + n

/-- The code point with a given number, if the number is at most `0x10FFFF`. -/
def ofNat? (n : Nat) : Option CodePoint :=
  if n < 0xD800 then some (scalar (Char.ofNat n))
  else if h : n < 0xE000 then some (surrogate ⟨n - 0xD800, by omega⟩)
  else if n < 0x110000 then some (scalar (Char.ofNat n))
  else none

/-- The character of a code point that is not a surrogate. -/
def toChar? : CodePoint → Option Char
  | scalar c => some c
  | surrogate _ => none

/-- Whether the code point is a character. -/
def isScalar : CodePoint → Bool
  | scalar _ => true
  | surrogate _ => false

/-- Lifts a class of characters to code points; lone surrogates belong to no class. -/
def satisfies (p : Char → Bool) : CodePoint → Bool
  | scalar c => p c
  | surrogate _ => false

/-- Whether the code point is an ASCII capital. -/
def isCapital : CodePoint → Bool := satisfies Char.isUpper

/-- The code point with an ASCII capital put into lower case. -/
def asciiLower : CodePoint → CodePoint
  | scalar c => scalar c.toLower
  | p => p

end CodePoint

/-- A text is a list of code points. -/
abbrev Text := List CodePoint

namespace Text

/-- The text of a list of characters. -/
def ofChars (cs : List Char) : Text := cs.map .scalar

/-- The text of a character string. -/
def ofString (s : String) : Text := ofChars s.toList

instance : Coe String Text := ⟨ofString⟩

/-- The characters of a text, if it has no lone surrogate. -/
def toChars? : Text → Option (List Char)
  | [] => some []
  | .scalar c :: t => (toChars? t).map (c :: ·)
  | .surrogate _ :: _ => none

/-- Whether every code point of the text is a character, so that the text can be encoded. -/
def isUnicode (t : Text) : Bool := t.all CodePoint.isScalar

/-- The characters of a text, with U+FFFD in the place of each lone surrogate. -/
def toStringLossy (t : Text) : String :=
  String.ofList (t.map fun
    | .scalar c => c
    | .surrogate _ => '\uFFFD')

/-- The decimal digits of a natural number. -/
def ofNat (n : Nat) : Text := ofString (toString n)

/-- The decimal digits of an integer, after a minus sign if it is negative. -/
def ofInt : Int → Text
  | .ofNat n => ofNat n
  | .negSucc n => .scalar '-' :: ofNat (n + 1)

/-- Order by code point numbers, a proper prefix first. -/
def lt : Text → Text → Bool
  | [], [] => false
  | [], _ :: _ => true
  | _ :: _, [] => false
  | a :: s, b :: t => a.value < b.value || (a == b && lt s t)

/-- The texts of a list joined with a separator between neighbours. -/
def join (sep : Text) : List Text → Text
  | [] => []
  | [t] => t
  | t :: ts => t ++ sep ++ join sep ts

end Text

end ProviderCatalog
