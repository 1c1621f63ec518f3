import ProviderCatalog.Go.Node
import ProviderCatalog.Json.Reader

/-!
# Values of expressions

What an expression says without being run: the string or the integer that it spells, the name of
the function that it calls, and the elements of the composite literal that it is. Parentheses and
the wrappers around the elements of a literal never matter, and comments between the parts of an
expression are passed over.

## Main definitions

* `Node.unwrap?`: the expression inside parentheses and wrappers.
* `Node.literalBody?`, `Node.keyedElements`, `Node.listElements`: composite literals.
* `Node.stringValue?`, `Node.intValue?`, `Node.isTrue`, `Node.callName?`: plain values.
-/

namespace ProviderCatalog.Go.Node

/-- Whether a node only wraps another one. -/
def isWrapper (n : Node) : Bool :=
  n.kind == .literalElement || n.kind == .parenthesizedExpression

mutual

/-- The expression inside parentheses and wrappers, if there is one. -/
def unwrap? : Node → Option Node
  | leaf k l t => some (leaf k l t)
  | branch k cs =>
    if k == .literalElement || k == .parenthesizedExpression then unwrapFirst? cs
    else some (branch k cs)

/-- The expression inside the first phrase among neighbouring nodes. -/
def unwrapFirst? : List (Role × Node) → Option Node
  | [] => none
  | (_, n) :: rest => if n.isNamed && !n.isComment then unwrap? n else unwrapFirst? rest

end

/-- The expressions of a list, or the node itself. -/
def expressions (n : Node) : List Node :=
  if n.kind == .expressionList then n.phrases else [n]

/-- The expressions of a child in a role. -/
def expressionsOf (n : Node) (r : Role) : List Node :=
  match n.child? r with
  | some c => c.expressions
  | none => []

/-- Whether a node has the given text. -/
def hasText (n : Node) (s : String) : Bool := n.chars == s.toList

/-! ### Composite literals -/

/-- The braces of a composite literal, or of a literal value without a type. -/
def bracesOf? (n : Node) : Option Node :=
  if n.kind == .compositeLiteral then n.child? .body
  else if n.kind == .literalValue then some n
  else none

/-- The operand of an address operator, unwrapped; other expressions stay. -/
def dereference? (n : Node) : Option Node :=
  if n.kind == .unaryExpression then
    if (n.child? .operator).any (·.hasText "&") then (n.child? .operand).bind unwrap? else none
  else some n

/-- The braces of the composite literal that an expression is, perhaps after an address operator,
or of a literal value without a type. -/
def literalBody? (n : Node) : Option Node := (n.unwrap?.bind dereference?).bind bracesOf?

/-- The key and the value of an element, unwrapped. -/
def keyAndValue? (n : Node) : Option (Node × Node) :=
  if n.kind == .keyedElement then
    match n.phrases with
    | k :: v :: _ => do return (← k.unwrap?, ← v.unwrap?)
    | _ => none
  else none

/-- The keys and values of a literal's keyed elements, in order. -/
def keyedElements (braces : Node) : List (Node × Node) :=
  braces.namedChildren.filterMap keyAndValue?

/-- The elements of a literal without keys, in order. -/
def listElements (braces : Node) : List Node :=
  (braces.namedChildren.filter fun e => e.kind != .keyedElement && !e.isComment).filterMap unwrap?

/-- The value of the first element with the given key. -/
def fieldValue? (braces : Node) (key : String) : Option Node :=
  (braces.keyedElements.find? (·.1.hasText key)).map (·.2)

/-! ### Strings -/

/-- The text between the delimiters of a literal. -/
def undelimited (n : Node) : Text := Text.ofChars (n.chars.drop 1).dropLast

/-- The value of an interpreted string literal. A literal with escapes that a document string does
not have stands for the text between its quotes. -/
def interpreted (n : Node) : Text :=
  match Json.read? Json.lenient n.text with
  | some (.text t) => t
  | _ => n.undelimited

mutual

/-- The string that an expression spells: a literal, or several joined by plus signs. -/
def stringValue? : Node → Option Text
  | leaf k l t =>
    if k == .interpretedStringLiteral then some (interpreted (leaf k l t))
    else if k == .rawStringLiteral then some (undelimited (leaf k l t))
    else none
  | branch k cs =>
    if k == .literalElement || k == .parenthesizedExpression then firstString? cs
    else if k == .binaryExpression && ((branch k cs).child? .operator).any (·.hasText "+") then
      match stringIn? .left cs, stringIn? .right cs with
      | some s, some t => some (s ++ t)
      | _, _ => none
    else none

/-- The string that the first phrase among neighbouring nodes spells. -/
def firstString? : List (Role × Node) → Option Text
  | [] => none
  | (_, n) :: rest => if n.isNamed && !n.isComment then stringValue? n else firstString? rest

/-- The string that the first of neighbouring nodes in a role spells. -/
def stringIn? (r : Role) : List (Role × Node) → Option Text
  | [] => none
  | (r', n) :: rest => if r' == r then stringValue? n else stringIn? r rest

end

/-! ### Integers -/

/-- The value of a digit in bases up to sixteen. -/
def digitOf (c : Char) : Nat := (Json.hexValue? c).getD 16

/-- The number that digits spell in a base, if all of them belong to it. -/
def digitsIn? (base : Nat) (ds : List Char) : Option Nat :=
  if ds.isEmpty then none
  else ds.foldlM (fun n c => if digitOf c < base then some (base * n + digitOf c) else none) 0

/-- The number that an integer literal without underscores denotes. A leading zero makes the
digits octal, and so does a number of decimal digits beyond the limit. -/
def intOfDigits? : List Char → Option Nat
  | '0' :: 'x' :: ds | '0' :: 'X' :: ds => digitsIn? 16 ds
  | '0' :: 'b' :: ds | '0' :: 'B' :: ds => digitsIn? 2 ds
  | '0' :: 'o' :: ds | '0' :: 'O' :: ds => digitsIn? 8 ds
  | '0' :: ds => digitsIn? 8 ('0' :: ds)
  | ds => if ds.length ≤ Decimal.maxDigits then digitsIn? 10 ds else digitsIn? 8 ds

/-- The integer that an expression spells. -/
def intValue? (n : Node) : Option Nat := do
  let n ← n.unwrap?
  if n.kind == .intLiteral then intOfDigits? (n.chars.filter (· != '_')) else none

/-! ### Other values -/

/-- Whether an expression is the constant true. -/
def isTrue (n : Node) : Bool := n.unwrap?.any (·.kind == .true)

/-- The name of a function: an identifier, or the last part of a selector. -/
def functionName? (n : Node) : Option Text :=
  if n.kind == .identifier then some n.text
  else if n.kind == .selectorExpression then (n.child? .field).map text
  else none

/-- The name of the function that an expression calls. -/
def callName? (n : Node) : Option Text := do
  let n ← n.unwrap?
  if n.kind == .callExpression then ((← n.child? .function).unwrap?).bind functionName? else none

end ProviderCatalog.Go.Node
