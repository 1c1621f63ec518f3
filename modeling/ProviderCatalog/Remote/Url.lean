import ProviderCatalog.Text.EncodingFault
import ProviderCatalog.Text.Search

/-!
# Addresses

An address is read into its parts and written in a normal form: the scheme and the host in lower
case, no port that its scheme has anyway, no segments of single or double points, and everything
that may not stand in a path or a query encoded by percent signs.

## Main definitions

* `percentEncode`: a text with all but some characters encoded.
* `Url`, `Url.read`, `Url.toText`: the parts of an address.
* `Url.join`: a reference read relative to an address.
* `Url.sameOrigin`: whether two addresses lead to the same server.
-/

namespace ProviderCatalog.Remote

/-- An address that cannot be read. -/
inductive UrlFault where
  | control (c : Char) (position : Nat)
  | notUnicode (f : EncodeFault)
deriving DecidableEq, Repr

/-- A digit of a number below sixteen, in upper case. -/
def upperHexDigit (n : Nat) : Char :=
  if n < 10 then Char.ofNat (0x30 + n) else Char.ofNat (0x37 + n)

/-- A byte after a percent sign. -/
def percentByte (b : UInt8) : List Char :=
  ['%', upperHexDigit (b.toNat / 16), upperHexDigit (b.toNat % 16)]

/-- A text with all characters outside a class encoded. -/
def percentEncode (keep : Char → Bool) (t : Text) : Except EncodeFault Text :=
  match t.encodeFault? with
  | some f => .error f
  | none => .ok <| t.flatMap fun
    | .scalar c =>
      if keep c then [.scalar c] else Text.ofChars ((String.utf8EncodeChar c).flatMap percentByte)
    | .surrogate n => [.surrogate n]

/-- The characters that stand for themselves in every part of an address. -/
def isUnreserved (c : Char) : Bool := c.isAlphanum || c == '-' || c == '.' || c == '_' || c == '~'

/-- The characters that may stand in a query. -/
def isQueryChar (c : Char) : Bool := '!' ≤ c && c ≤ '~' && !("\"#<>".toList.contains c)

/-- The characters that may stand in a path. -/
def isPathChar (c : Char) : Bool := isQueryChar c && !("?`\x7b\x7d".toList.contains c)

/-- The characters that may stand in a fragment. -/
def isFragmentChar (c : Char) : Bool := '!' ≤ c && c ≤ '~' && !("\"<>`".toList.contains c)

namespace UrlFault

/-- A control character between quotes. -/
def quoted (c : Char) : List Char :=
  match c with
  | '\n' => "'\\n'".toList
  | '\r' => "'\\r'".toList
  | '\t' => "'\\t'".toList
  | c => "'\\x".toList ++ lowerHex 2 c.toNat ++ ['\'']

/-- The message about an address that cannot be read. -/
def message : UrlFault → Text
  | control c position =>
    ("Invalid non-printable ASCII character in URL, " : Text) ++ Text.ofChars (quoted c)
      ++ " at position " ++ Text.ofNat position ++ "."
  | notUnicode f => f.message

end UrlFault

/-- The parts of an address. -/
structure Url where
  /-- The scheme, empty if there is none. -/
  scheme : Text
  authority : Option Text
  path : Text
  query : Option Text
  fragment : Option Text
deriving DecidableEq, Repr

namespace Url

/-- Whether a code point may stand in a scheme. -/
def isSchemePoint : CodePoint → Bool :=
  CodePoint.satisfies fun c => c.isAlphanum || c == '+' || c == '-' || c == '.'

/-- The scheme at the front of an address, and what follows it. -/
def splitScheme (t : Text) : Text × Text :=
  let scheme := t.takeWhile isSchemePoint
  match scheme, t.drop scheme.length with
  | .scalar c :: _, .scalar ':' :: rest =>
    if c.isAlpha then (scheme.map CodePoint.asciiLower, rest) else ([], t)
  | _, _ => ([], t)

/-- A text up to a code point, and what follows the code point. -/
def splitAt (p : CodePoint) (t : Text) : Text × Option Text :=
  match Text.cut? p t with
  | some (a, b) => (a, some b)
  | none => (t, none)

/-- The ports that schemes have. -/
def schemePorts : List (Text × Text) :=
  [("http", "80"), ("https", "443"), ("ws", "80"), ("wss", "443"), ("ftp", "21")]

/-- The authority of an address in normal form. -/
def normalAuthority (scheme authority : Text) : Text :=
  let (user, place) : Text × Text := match Text.cutLast? (.scalar '@') authority with
    | some (u, p) => (u ++ "@", p)
    | none => ([], authority)
  let host := place.takeWhile (· != CodePoint.scalar ':')
  let port := (place.drop host.length).drop 1
  let host := host.map CodePoint.asciiLower
  let port : Text :=
    if port.isEmpty || schemePorts.lookup scheme == some port then [] else ":" ++ port
  user ++ host ++ port

/-- The segments of a path without single points, a double one taking the segment before it. -/
def withoutPoints (kept : List Text) : List Text → List Text
  | [] => kept
  | s :: rest =>
    if s = ("." : Text) then withoutPoints kept rest
    else if s = (".." : Text) then
      withoutPoints (if kept.isEmpty || kept = [[]] then kept else kept.dropLast) rest
    else withoutPoints (kept ++ [s]) rest

/-- A path without segments of points. -/
def normalPath (path : Text) : Text :=
  let segments := path.splitOn (.scalar '/')
  if segments.any fun s => s = ("." : Text) || s = (".." : Text) then
    Text.join "/" (withoutPoints [] segments)
  else path

/-- The first control character of an address, with its position. -/
def control? (position : Nat) : Text → Option (Char × Nat)
  | [] => none
  | .scalar c :: t =>
    if c < ' ' || c == '\x7f' then some (c, position) else control? (position + 1) t
  | .surrogate _ :: t => control? (position + 1) t

/-- Encodes a part of an address. -/
def encodePart (keep : Char → Bool) (t : Text) : Except UrlFault Text :=
  (percentEncode keep t).mapError .notUnicode

/-- Encodes a part of an address that may be absent. -/
def encodePart? (keep : Char → Bool) : Option Text → Except UrlFault (Option Text)
  | some t => (encodePart keep t).map some
  | none => .ok none

/-- Reads an address. -/
def read (t : Text) : Except UrlFault Url := do
  if let some (c, position) := control? 0 t then throw (.control c position)
  let (scheme, rest) := splitScheme t
  let (rest, fragment) := splitAt (.scalar '#') rest
  let (rest, query) := splitAt (.scalar '?') rest
  let (authority, path) := match rest with
    | .scalar '/' :: .scalar '/' :: rest =>
      let authority := rest.takeWhile (· != CodePoint.scalar '/')
      (some authority, rest.drop authority.length)
    | _ => (none, rest)
  let path := if scheme.isEmpty && authority.isNone then path else normalPath path
  let path ← encodePart isPathChar path
  let query ← encodePart? isQueryChar query
  let fragment ← encodePart? isFragmentChar fragment
  return ⟨scheme, authority.map (normalAuthority scheme), path, query, fragment⟩

/-- The written form of an address. -/
def toText (u : Url) : Text :=
  let part (mark : Text) : Option Text → Text
    | some t => mark ++ t
    | none => []
  let scheme : Text := if u.scheme.isEmpty then [] else u.scheme ++ (":" : Text)
  scheme ++ part "//" u.authority ++ u.path
    ++ part "?" u.query ++ part "#" u.fragment

/-- Whether an address names a server. -/
def isAbsolute (u : Url) : Bool := !u.scheme.isEmpty && u.authority.any (!·.isEmpty)

/-- The address that a client without a base sends a request to: a relative one is put below the
root. -/
def rooted (u : Url) : Url :=
  if u.isAbsolute then u else
    { u with scheme := [], authority := none, path := "/" ++ u.path.dropWhile (· == .scalar '/') }

/-- The path of a reference below the directory of another path. -/
def mergedPath (base path : Text) : Text :=
  match Text.cutLast? (.scalar '/') base with
  | some (directory, _) => normalPath (directory ++ "/" ++ path)
  | none => normalPath ("/" ++ path)

/-- A reference read relative to an address. -/
def join (base reference : Url) : Url :=
  let r := { reference with fragment := reference.fragment <|> base.fragment }
  if r.isAbsolute then r
  else if !r.scheme.isEmpty then { r with authority := base.authority }
  else if r.authority.any (!·.isEmpty) then { r with scheme := base.scheme }
  else
    let r := { r with scheme := base.scheme, authority := base.authority }
    match r.path with
    | [] => { r with path := base.path, query := r.query <|> base.query }
    | .scalar '/' :: _ => { r with path := normalPath r.path }
    | path => { r with path := mergedPath base.path path }

/-- Whether two addresses lead to the same server. -/
def sameOrigin (u v : Url) : Bool := u.scheme = v.scheme && u.authority = v.authority

end Url

end ProviderCatalog.Remote
