import ProviderCatalog.Go.Value

/-!
# Functions

What a declaration of a function or method says about it: its name, the number of its parameter
declarations, the statements of its body and the composite literal that it returns, directly or by
way of a variable of its body.

## Main definitions

* `Node.declaredName`, `Node.parameterCount`, `Node.bodyStatements`: the parts of a declaration.
* `Node.returnValues`: the values of a return statement.
* `Node.returnedLiteral?`: the composite literal that a function returns.
-/

namespace ProviderCatalog.Go.Node

/-- The name of a declaration. -/
def declaredName (n : Node) : Text := ((n.child? .name).map text).getD []

/-- The number of parameter declarations, names that share a type counting once. -/
def parameterCount (n : Node) : Nat :=
  ((n.child? .parameters).map fun ps => ps.phrases.length).getD 0

/-- The statements of a body that stand in no other statement. -/
def bodyStatements (n : Node) : List Node :=
  match n.child? .body with
  | none => []
  | some b => b.namedChildren.flatMap fun c =>
    if c.kind == .statementList then c.phrases else if c.isComment then [] else [c]

/-- The values of a return statement. -/
def returnValues (n : Node) : List Node := n.phrases.flatMap expressions

/-! ### Returned literals -/

/-- An expression together with the braces of the literal that it is. -/
structure Literal where
  expression : Node
  braces : Node

/-- The literals that variables hold, the latest first. -/
abbrev Bindings := List (Text × Literal)

/-- The bindings with one more, if the value is a literal. -/
def bindLiteral (bindings : Bindings) (target value : Node) : Bindings :=
  match value.literalBody? with
  | some b => (target.text, ⟨value, b⟩) :: bindings
  | none => bindings

/-- The bindings after a declaration of variables, in which each specification with one name and
one value counts. -/
def bindSpec (bindings : Bindings) (spec : Node) : Bindings :=
  if spec.kind == .varSpec then
    match spec.children .name, spec.expressionsOf .value with
    | [x], [v] => bindLiteral bindings x v
    | _, _ => bindings
  else bindings

/-- The bindings after a statement. An assignment counts if it has one variable on the left and one
value on the right. -/
def bindStatement (bindings : Bindings) (s : Node) : Bindings :=
  if s.kind == .shortVarDeclaration || s.kind == .assignmentStatement then
    match s.expressionsOf .left, s.expressionsOf .right with
    | [x], [v] => if x.kind == .identifier then bindLiteral bindings x v else bindings
    | _, _ => bindings
  else if s.kind == .varDeclaration then s.walk.foldl bindSpec bindings
  else bindings

/-- The literal that a returned value is, or that the variable holds which it names. -/
def resolve? (bindings : Bindings) (value : Node) : Option Literal :=
  match value.literalBody? with
  | some b => some ⟨value, b⟩
  | none => do
    let x ← value.unwrap?
    if x.kind == .identifier then bindings.lookup x.text else none

/-- The literal that statements return after the given bindings: that of the first return whose
first value is one. -/
def returnedFrom? (bindings : Bindings) : List Node → Option Literal
  | [] => none
  | s :: rest =>
    if s.kind == .returnStatement then
      match s.returnValues.head?.bind (resolve? bindings) with
      | some l => some l
      | none => returnedFrom? bindings rest
    else returnedFrom? (bindStatement bindings s) rest

/-- The composite literal that a function returns. -/
def returnedLiteral? (n : Node) : Option Literal := returnedFrom? [] n.bodyStatements

end ProviderCatalog.Go.Node
