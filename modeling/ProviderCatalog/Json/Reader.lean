import ProviderCatalog.Json.Token

/-!
# Reading JSON documents

The tokens of a document are put together with a stack of the lists and mappings that are still
open. A key that occurs twice in a mapping keeps its first place and its last value. The first token
that does not fit is the fault of the document: in general a malformed document, but an integer of
too many digits and nesting that is too deep are told apart where a value is due.

## Main definitions

* `Json.Fault`: why a text is no document.
* `Json.Frame`: a list or mapping that is still open.
* `Json.read`, `Json.read?`: the datum that a document denotes.
-/

namespace ProviderCatalog.Json

/-- Why a text is not read. -/
inductive Fault where
  | malformed
  /-- An integer has more digits than are read. -/
  | tooLong (digits : Nat)
  /-- Lists or mappings are nested too deep; the flag tells whether a mapping is the last one. -/
  | tooDeep (isMapping : Bool)
deriving DecidableEq, Repr

/-- The message about a text that is not read. -/
def Fault.message : Fault → Text
  | malformed => "invalid JSON payload"
  | tooLong digits => Decimal.excessMessage digits
  | tooDeep isMapping =>
    ("maximum recursion depth exceeded while decoding a JSON " : Text)
      ++ (if isMapping then "object" else "array") ++ " from a unicode string"

/-- A list or mapping still open, with what it holds so far, the last item first. -/
inductive Frame where
  | list (reversed : List Datum)
  | mapping (entries : List (Datum × Datum)) (key : Text)

/-- What the next token has to be. -/
inductive Expected where
  | value
  | firstItem
  | firstKey
  | key
  | colon (key : Text)
  | separator
  | nothing (result : Datum)

/-- The stack of open frames and the expectation for the next token. -/
structure Assembly where
  stack : List Frame
  expected : Expected

/-- Hands a finished datum to the innermost open frame. -/
def Assembly.give (stack : List Frame) (d : Datum) : Assembly :=
  match stack with
  | [] => ⟨[], .nothing d⟩
  | .list items :: rest => ⟨.list (d :: items) :: rest, .separator⟩
  | .mapping entries key :: rest =>
    ⟨.mapping (Datum.setEntry (.text key) d entries) key :: rest, .separator⟩

/-- The assembly with one frame more. -/
def Assembly.enter (rules : Strictness) (stack : List Frame) (isMapping : Bool) :
    Except Fault Assembly :=
  if stack.length < rules.maxDepth then
    .ok (if isMapping then ⟨.mapping [] [] :: stack, .firstKey⟩
      else ⟨.list [] :: stack, .firstItem⟩)
  else .error (.tooDeep isMapping)

/-- One token more. -/
def Assembly.step (rules : Strictness) (a : Assembly) (t : Token) : Except Fault Assembly :=
  match a.expected, t with
  | .value, .scalar d | .firstItem, .scalar d => .ok (.give a.stack d)
  | .value, .tooLong n | .firstItem, .tooLong n => .error (.tooLong n)
  | .value, .openList | .firstItem, .openList => Assembly.enter rules a.stack false
  | .value, .openMapping | .firstItem, .openMapping => Assembly.enter rules a.stack true
  | .firstItem, .closeList => .ok (.give a.stack.tail (.list []))
  | .firstKey, .closeMapping => .ok (.give a.stack.tail (.mapping []))
  | .firstKey, .scalar (.text k) | .key, .scalar (.text k) => .ok ⟨a.stack, .colon k⟩
  | .colon k, .colon =>
    match a.stack with
    | .mapping entries _ :: rest => .ok ⟨.mapping entries k :: rest, .value⟩
    | _ => .error .malformed
  | .separator, .comma =>
    match a.stack with
    | .list _ :: _ => .ok ⟨a.stack, .value⟩
    | .mapping _ _ :: _ => .ok ⟨a.stack, .key⟩
    | [] => .error .malformed
  | .separator, .closeList =>
    match a.stack with
    | .list items :: rest => .ok (.give rest (.list items.reverse))
    | _ => .error .malformed
  | .separator, .closeMapping =>
    match a.stack with
    | .mapping entries _ :: rest => .ok (.give rest (.mapping entries))
    | _ => .error .malformed
  | _, _ => .error .malformed

/-- The datum that a list of tokens denotes. -/
def ofTokens (rules : Strictness) (ts : List Token) : Except Fault Datum := do
  let a ← ts.foldlM (Assembly.step rules) ⟨[], .value⟩
  match a.expected with
  | .nothing d => .ok d
  | _ => .error .malformed

/-- The datum that a document denotes, or why the text is none. -/
def read (rules : Strictness) (t : Text) : Except Fault Datum := ofTokens rules (tokens rules t)

/-- The datum that a document denotes. -/
def read? (rules : Strictness) (t : Text) : Option Datum := (read rules t).toOption

end ProviderCatalog.Json
