import ProviderCatalog.Go.Token
import ProviderCatalog.Text.Basic

/-!
# Syntax trees of Go sources

A syntax tree has a leaf for every token and a node for every phrase, whose children play named
roles in it. The text of a node is the part of the source from its first to its last token, with
the blanks and comments between them.

Comments are nodes too. A parser that makes phrases of tokens leaves them in front of the tokens;
they then become parts of the innermost phrase that holds the tokens on both sides. They are named
but play no role, so that whoever goes through the parts of a phrase has to pass over them.

## Main definitions

* `Kind`, `Role`: the kinds of phrases and the roles of their parts.
* `Node`: syntax trees.
* `Node.text`: the part of the source that a tree spans.
* `Node.namedChildren`, `Node.child?`, `Node.children`: the parts of a tree.
* `Node.phrases`: the named parts of a tree that are no comments.
* `Node.withComments`, `Node.ofFile`: a tree with its comments as nodes.
* `Node.walk`: all named nodes of a tree, each before its parts.
-/

namespace ProviderCatalog.Go

/-- The kinds of phrases. -/
inductive Kind where
  /-- A mark or a keyword, which is part of a phrase but no phrase itself. -/
  | mark
  | comment
  -- files and declarations
  | sourceFile
  | packageClause
  | importDeclaration
  | importSpec
  | importSpecList
  | dot
  | blankIdentifier
  | constDeclaration
  | constSpec
  | varDeclaration
  | varSpec
  | varSpecList
  | typeDeclaration
  | typeSpec
  | typeAlias
  | functionDeclaration
  | methodDeclaration
  | typeParameterList
  | typeParameterDeclaration
  | parameterList
  | parameterDeclaration
  | variadicParameterDeclaration
  -- names
  | identifier
  | typeIdentifier
  | fieldIdentifier
  | packageIdentifier
  | labelName
  -- types
  | genericType
  | typeArguments
  | typeElement
  | qualifiedType
  | pointerType
  | structType
  | fieldDeclarationList
  | fieldDeclaration
  | interfaceType
  | methodElement
  | arrayType
  | implicitLengthArrayType
  | sliceType
  | mapType
  | channelType
  | functionType
  | negatedType
  | parenthesizedType
  -- statements
  | block
  | statementList
  | emptyStatement
  | expressionStatement
  | sendStatement
  | receiveStatement
  | incStatement
  | decStatement
  | assignmentStatement
  | shortVarDeclaration
  | labeledStatement
  | fallthroughStatement
  | breakStatement
  | continueStatement
  | gotoStatement
  | returnStatement
  | goStatement
  | deferStatement
  | ifStatement
  | forStatement
  | forClause
  | rangeClause
  | expressionSwitchStatement
  | expressionCase
  | defaultCase
  | typeSwitchStatement
  | typeCase
  | selectStatement
  | communicationCase
  -- expressions
  | expressionList
  | parenthesizedExpression
  | callExpression
  | argumentList
  | variadicArgument
  | selectorExpression
  | indexExpression
  | sliceExpression
  | typeAssertionExpression
  | typeConversionExpression
  | typeInstantiationExpression
  | compositeLiteral
  | literalValue
  | literalElement
  | keyedElement
  | funcLiteral
  | unaryExpression
  | binaryExpression
  | intLiteral
  | floatLiteral
  | imaginaryLiteral
  | runeLiteral
  | rawStringLiteral
  | interpretedStringLiteral
  | nil
  | true
  | false
  | iota
deriving DecidableEq, Repr

/-- The roles that parts play in a phrase. -/
inductive Role where
  /-- A part without a role of its own. -/
  | part
  | name
  | path
  | type
  | typeParameters
  | typeArguments
  | receiver
  | parameters
  | result
  | body
  | package
  | length
  | element
  | key
  | value
  | tag
  | left
  | right
  | operator
  | operand
  | function
  | arguments
  | field
  | index
  | start
  | end
  | capacity
  | label
  | channel
  | initializer
  | condition
  | consequence
  | alternative
  | update
  | symbol
  | communication
deriving DecidableEq, Repr

/-- Syntax trees. -/
inductive Node where
  /-- A token. -/
  | leaf (kind : Kind) (leading text : List Char)
  /-- A phrase. -/
  | branch (kind : Kind) (children : List (Role × Node))

namespace Node

/-- The kind of a node. -/
def kind : Node → Kind
  | leaf k _ _ => k
  | branch k _ => k

/-- Whether a node is a phrase, a token that stands for one or a comment. -/
def isNamed (n : Node) : Bool := n.kind != .mark

/-- Whether a node is a comment. -/
def isComment (n : Node) : Bool := n.kind == .comment

/-- The children of a node with their roles. -/
def parts : Node → List (Role × Node)
  | leaf _ _ _ => []
  | branch _ cs => cs

/-- The children of a node that are phrases or comments. -/
def namedChildren (n : Node) : List Node := (n.parts.map (·.2)).filter isNamed

/-- The children of a node that are phrases, without the comments between them. -/
def phrases (n : Node) : List Node := n.namedChildren.filter (!·.isComment)

/-- The children in a role. -/
def children (n : Node) (r : Role) : List Node :=
  (n.parts.filter (·.1 == r)).map (·.2)

/-- The first child in a role. -/
def child? (n : Node) (r : Role) : Option Node := (n.children r).head?

mutual

/-- The part of the source that a node spans, together with what precedes its first token. -/
def fullText : Node → List Char
  | leaf _ leading text => leading ++ text
  | branch _ cs => fullTextOf cs

/-- The part of the source that neighbouring nodes span, together with what precedes them. -/
def fullTextOf : List (Role × Node) → List Char
  | [] => []
  | (_, n) :: rest => fullText n ++ fullTextOf rest

end

mutual

/-- The part of the source that a node spans. -/
def chars : Node → List Char
  | leaf _ _ text => text
  | branch _ cs => charsOf cs

/-- The part of the source that neighbouring nodes span. -/
def charsOf : List (Role × Node) → List Char
  | [] => []
  | (_, n) :: rest => chars n ++ fullTextOf rest

end

/-- The part of the source that a node spans, as a text. -/
def text (n : Node) : Text := Text.ofChars n.chars

/-! ### Comments -/

/-- What precedes the first token of a tree. -/
def lead : Node → List Char
  | leaf _ leading _ => leading
  | branch _ [] => []
  | branch _ ((_, n) :: _) => lead n

/-- A comment, behind the blanks in front of it, as a part of a phrase. -/
def commentPart (c : List Char × List Char) : Role × Node := (.part, .leaf .comment c.1 c.2)

mutual

/-- The tree in which the comments between tokens are nodes, with the given blanks in front. -/
def withComments (front : List Char) : Node → Node
  | leaf k _ text => leaf k front text
  | branch k cs => branch k (partsWithComments (some front) cs)

/-- Neighbouring trees with the comments in front of them between them. If the blanks in front of
the first one are given, then the comments there belong to a phrase further out. -/
def partsWithComments (front : Option (List Char)) : List (Role × Node) → List (Role × Node)
  | [] => []
  | (r, n) :: cs =>
    let gap := (front.map (⟨[], ·⟩)).getD (gapOf n.lead)
    gap.comments.map commentPart ++ (r, withComments gap.blanks n) :: partsWithComments none cs

end

/-- The tree of a file in which all comments are nodes, those behind the last token included. -/
def ofFile (n : Node) (behind : List Char) : Node :=
  branch n.kind (partsWithComments none n.parts ++ (gapOf behind).comments.map commentPart)

/-! ### Traversal -/

mutual

/-- The number of nodes of a tree. -/
def size : Node → Nat
  | leaf _ _ _ => 1
  | branch _ cs => sizeOfParts cs + 1

/-- The number of nodes of neighbouring trees. -/
def sizeOfParts : List (Role × Node) → Nat
  | [] => 0
  | (_, n) :: rest => size n + sizeOfParts rest

end

/-- The number of nodes of a list of trees. -/
def totalSize : List Node → Nat
  | [] => 0
  | n :: ns => n.size + totalSize ns

@[simp] theorem totalSize_append (ns ns' : List Node) :
    totalSize (ns ++ ns') = totalSize ns + totalSize ns' := by
  induction ns with
  | nil => exact (Nat.zero_add _).symm
  | cons n ns ih => rw [List.cons_append, totalSize, totalSize, ih, Nat.add_assoc]

private theorem totalSize_filter_le (cs : List (Role × Node)) :
    totalSize ((cs.map (·.2)).filter isNamed) ≤ sizeOfParts cs := by
  induction cs with
  | nil => simp [totalSize, sizeOfParts]
  | cons c cs ih =>
    obtain ⟨r, n⟩ := c
    simp only [List.map_cons, sizeOfParts, List.filter_cons]
    split
    · rw [totalSize]
      omega
    · omega

theorem totalSize_namedChildren_lt (n : Node) : totalSize n.namedChildren < n.size := by
  cases n with
  | leaf k l t => simp [namedChildren, parts, totalSize, size]
  | branch k cs =>
    have := totalSize_filter_le cs
    simp only [namedChildren, parts, size]
    omega

/-- The named nodes of the trees on a stack, the top of the stack first, where each node taken off
the stack makes room for its children. -/
def walkStack : List Node → List Node
  | [] => []
  | n :: rest => n :: walkStack (n.namedChildren ++ rest)
termination_by stack => totalSize stack
decreasing_by
  have := totalSize_namedChildren_lt n
  rw [totalSize_append, totalSize]
  omega

/-- A node and all named nodes below it, each before its parts. -/
def walk (n : Node) : List Node := walkStack [n]

end Node

end ProviderCatalog.Go
