import ProviderCatalog.Text.Basic

/-!
# Blanks, words and lines

The blank characters are those of Unicode's separator classes together with the control characters
that separate lines, files and records. A text is trimmed of them at both ends, cut into words at
them, and cut into lines at the line-breaking ones, a carriage return followed by a line feed
counting as one break.

## Main definitions

* `Text.trim`, `Text.trimLeft`, `Text.trimRight`: a text without its outer blanks.
* `Text.unpadded`: a text without the blanks that may stand around a number.
* `Text.words`: the maximal runs of code points that are not blank.
* `Text.lines`: the pieces between line breaks, with no empty piece after a last break.
-/

namespace ProviderCatalog

/-- Whether a character is blank. -/
def isBlankChar (c : Char) : Bool :=
  ('\t' ≤ c && c ≤ '\r') || ('\x1c' ≤ c && c ≤ ' ') || c == '\u0085' || c == '\u00a0' ||
  c == '\u1680' || ('\u2000' ≤ c && c ≤ '\u200a') || c == '\u2028' || c == '\u2029' ||
  c == '\u202f' || c == '\u205f' || c == '\u3000'

/-- Whether a character is blank at the ends of a number that is written as a text. -/
def isPaddingChar (c : Char) : Bool := isBlankChar c && !('\x1c' ≤ c && c ≤ '\x1f')

/-- Whether a character ends a line. -/
def isLineBreakChar (c : Char) : Bool :=
  ('\n' ≤ c && c ≤ '\r') || ('\x1c' ≤ c && c ≤ '\x1e') || c == '\u0085' || c == '\u2028' ||
  c == '\u2029'

namespace CodePoint

/-- Whether a code point is blank. -/
def isBlank : CodePoint → Bool := satisfies isBlankChar

/-- Whether a code point ends a line. -/
def isLineBreak : CodePoint → Bool := satisfies isLineBreakChar

end CodePoint

namespace Text

/-- The text from its first code point outside a class on. -/
def dropLeft (p : CodePoint → Bool) (t : Text) : Text := t.dropWhile p

/-- The text up to its last code point outside a class. -/
def dropRight (p : CodePoint → Bool) (t : Text) : Text := (t.reverse.dropWhile p).reverse

/-- The text between its first and its last code point outside a class. -/
def dropEnds (p : CodePoint → Bool) (t : Text) : Text := dropRight p (dropLeft p t)

/-- The text without its leading blanks. -/
def trimLeft (t : Text) : Text := dropLeft CodePoint.isBlank t

/-- The text without its trailing blanks. -/
def trimRight (t : Text) : Text := dropRight CodePoint.isBlank t

/-- The text without its leading and trailing blanks. -/
def trim (t : Text) : Text := dropEnds CodePoint.isBlank t

/-- A text without the padding of a number at its ends. -/
def unpadded (t : Text) : Text := dropEnds (CodePoint.satisfies isPaddingChar) t

/-- The words of a text whose current word, read so far backwards, is `word`. -/
def wordsFrom (word : Text) : Text → List Text
  | [] => if word.isEmpty then [] else [word.reverse]
  | p :: t =>
    if p.isBlank then
      if word.isEmpty then wordsFrom [] t else word.reverse :: wordsFrom [] t
    else wordsFrom (p :: word) t

/-- The maximal runs of code points that are not blank. -/
def words (t : Text) : List Text := wordsFrom [] t

/-- The first word of a text, empty if the text is blank. -/
def firstWord (t : Text) : Text := t.trimLeft.takeWhile fun p => !p.isBlank

/-- The lines of a text whose current line, read so far backwards, is `line`. -/
def linesFrom (line : Text) : Text → List Text
  | [] => if line.isEmpty then [] else [line.reverse]
  | .scalar '\r' :: .scalar '\n' :: t => line.reverse :: linesFrom [] t
  | p :: t => if p.isLineBreak then line.reverse :: linesFrom [] t else linesFrom (p :: line) t

/-- The lines of a text, without their breaks. -/
def lines (t : Text) : List Text := linesFrom [] t

end Text

end ProviderCatalog
