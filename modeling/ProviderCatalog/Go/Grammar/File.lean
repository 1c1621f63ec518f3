import ProviderCatalog.Go.Grammar.Statement

/-!
# Files

A file is a sequence of declarations and, more freely than in the language, statements. The package
clause may stand anywhere or be missing. A source either is a file from its first to its last token
or has no syntax tree at all.

## Main definitions

* `grammar`: the grammar of phrases up to a nesting depth.
* `fileNode`: the parser of files.
* `phraseTree?`, `parse?`: the tree of the phrases of a source, and its syntax tree.
-/

namespace ProviderCatalog.Go

/-- The grammar of phrases that contain only phrases of the given grammar. -/
def Grammar.next (g : Grammar) : Grammar where
  expression := binaryNode g
  unary := unaryNode g
  type := typeNode g
  statement := statementNode g
  block := blockNode g
  ifStatement := ifNode g
  literalValue := literalValueNode g

/-- The grammar of phrases that contain phrases of a given grammar up to a nesting depth. -/
def Grammar.deepen (g : Grammar) : Nat → Grammar
  | 0 => g
  | depth + 1 => g.next.deepen depth

/-- The grammar of phrases up to a nesting depth. -/
def grammar (depth : Nat) : Grammar := Grammar.empty.deepen depth

/-- An import. -/
def importSpec : Parser Node := phrase .importSpec do
  let n ← orNothing <| inRole .name <|
    token .dot "." <|> token .blankIdentifier "_" <|> name .packageIdentifier
  let some t ← peek | failure
  if t.kind == .string then return n ++ [(.path, ← take .interpretedStringLiteral)]
  else if t.kind == .rawString then return n ++ [(.path, ← take .rawStringLiteral)]
  else failure

/-- Imports in parentheses. -/
def importSpecList : Parser Node := phrase .importSpecList do
  let l ← mark "("
  let specs ← orNothing do
    let first ← inRole .part importSpec
    let rest ← many do
      let e ← terminator
      let s ← inRole .part importSpec
      return e ++ s
    let last ← orNothing terminator
    return first ++ rest.flatten ++ last
  let r ← mark ")"
  return l :: specs ++ [r]

/-- A declaration of imports. -/
def importDeclaration : Parser Node := phrase .importDeclaration do
  let k ← mark "import"
  if ← nextIs "(" then return [k, (.part, ← importSpecList)]
  else return [k, (.part, ← importSpec)]

/-- The body of a function, if it begins on the same line. -/
def body (g : Grammar) : Parser Parts := do
  if ← continuesWith true "\x7b" then inRole .body g.block else return []

/-- A declaration of a function or of a method. -/
def functionDeclaration (g : Grammar) : Parser Node := do
  let k ← mark "func"
  if ← nextIs "(" then phrase .methodDeclaration do
    let receiver ← parameterList g
    let n ← name .fieldIdentifier
    let ps ← parameterList g
    let r ← result g (simpleType g) true
    return [k, (.receiver, receiver), (.name, n), (.parameters, ps)] ++ r ++ (← body g)
  else phrase .functionDeclaration do
    let n ← name .identifier
    let ts ← if ← nextIs "[" then inRole .typeParameters (typeParameters g) else pure []
    let ps ← parameterList g
    let r ← result g (simpleType g) true
    return [k, (.name, n)] ++ ts ++ [(.parameters, ps)] ++ r ++ (← body g)

/-- A declaration or a statement at the top level of a file. -/
def topLevel (g : Grammar) : Parser Node := do
  if ← nextIs "package" then phrase .packageClause do
    let k ← mark "package"
    return [k, (.part, ← name .packageIdentifier)]
  else if ← nextIs "import" then importDeclaration
  else if ← nextIs "func" then functionDeclaration g <|> statementNode g
  else statementNode g

/-- A file. -/
def fileNode (g : Grammar) : Parser Node := phrase .sourceFile do
  let items ← many do
    let x ← inRole .part (topLevel g)
    return x ++ (← terminator)
  let last ← orNothing (inRole .part (topLevel g))
  return items.flatten ++ last

/-- The tree of the phrases of a source, with the comments still in front of the tokens. Every
phrase inside a phrase of the grammar begins at a later token or is of a later kind, so a depth of a
few levels for every token is enough. -/
def phraseTree? (source : List Char) : Option Node := do
  let ts ← tokens? source
  match (fileNode (grammar (4 * ts.length + 8))).run ts with
  | some (n, []) => some n
  | _ => none

/-- The syntax tree of a source, in which comments are nodes. The tree of its phrases spells what is
in front of the last token's end, and the comments behind it are parts of the file. -/
def parse? (source : List Char) : Option Node :=
  (phraseTree? source).map fun n => n.ofFile ((withoutMark source).drop n.fullText.length)

end ProviderCatalog.Go
