import ProviderCatalog.Text.Blank
import ProviderCatalog.Text.Search

/-!
# Lines of a changelog

Inside a release a line can open a section, by a heading of its own level or by a name in capitals
that ends in a colon, and a line can be a bullet, whose text is freed of links and code marks.

## Main definitions

* `isCapitalHeader`, `isBullet`: the kinds of lines.
* `sectionName`: the section that a line opens.
* `bulletText`: the text of a bullet.
-/

namespace ProviderCatalog.Changelog

/-- Whether a line is a name in capitals and blanks that ends in a colon, which one line feed may
follow. -/
def isCapitalHeader (line : Text) : Bool :=
  match line with
  | [] => false
  | p :: rest =>
    p.isCapital &&
      (match rest.dropWhile fun q => q.isCapital || q == .scalar ' ' with
        | [.scalar ':'] => true
        | [.scalar ':', .scalar '\n'] => true
        | _ => false)

/-- Whether a line begins with a bullet mark. -/
def isBullet (line : Text) : Bool := line.startsWith "-" || line.startsWith "*"

/-- Whether a line opens a section. -/
def opensSection (line : Text) : Bool := line.startsWith "### " || isCapitalHeader line

/-- The name of the section that a line opens. -/
def sectionName (line : Text) : Text :=
  (Text.dropRight (· == .scalar ':') (line.dropPrefix "### ").trim).trim

/-- The label and the rest of the text after a link's opening bracket, if a link follows. -/
def linkAfterBracket? (t : Text) : Option (Text × Text) :=
  let (label, rest) := t.span (· != .scalar ']')
  match label, rest with
  | _ :: _, .scalar ']' :: .scalar '(' :: rest =>
    match rest.span (· != .scalar ')') with
    | (_ :: _, .scalar ')' :: rest) => some (label, rest)
    | _ => none
  | _, _ => none

/-- The text with each link replaced by its label, where the first `skip` code points belong to a
link that has been replaced already. -/
def unlinkFrom : Nat → Text → Text
  | _, [] => []
  | skip + 1, _ :: t => unlinkFrom skip t
  | 0, p :: t =>
    if p == .scalar '[' then
      match linkAfterBracket? t with
      | some (label, rest) => label ++ unlinkFrom (t.length - rest.length) t
      | none => p :: unlinkFrom 0 t
    else p :: unlinkFrom 0 t

/-- The text with each link replaced by its label. -/
def unlink (t : Text) : Text := unlinkFrom 0 t

/-- The text of a bullet, without its mark, its links and its code marks. -/
def bulletText (line : Text) : Text :=
  Text.trim ((unlink (Text.trim (line.trim.drop 1))).erase (.scalar '\x60'))

end ProviderCatalog.Changelog
