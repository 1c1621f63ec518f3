import ProviderCatalog.Go.Grammar.TypeName

/-!
# Expressions

The parsers of expressions. An operand is extended by selectors, indices, calls and literal values,
prefixed by unary operators and joined by binary ones in five levels. A name followed by a brace
is a composite literal, except where the brace begins the block of a control statement.

## Main definitions

* `operandNode`, `primaryNode`, `unaryNode`, `binaryNode`: the layers of an expression.
* `literalValueNode`: the elements of a literal in braces.
* `expressionList`: expressions with commas between them.
-/

namespace ProviderCatalog.Go

/-- An expression or a literal value as an element of a literal. -/
def literalElement (g : Grammar) : Parser Node := phrase .literalElement do
  if ← nextIs "\x7b" then inRole .part g.literalValue
  else inRole .part (g.expression inner)

/-- An element of a literal, with a key or without. -/
def literalItem (g : Grammar) : Parser Parts := do
  let first ← literalElement g
  if ← nextIs ":" then
    let colon ← mark ":"
    let value ← literalElement g
    return [(.part, .branch .keyedElement [(.key, first), colon, (.value, value)])]
  else return [(.part, first)]

/-- The elements of a literal in braces. -/
def literalValueNode (g : Grammar) : Parser Node := phrase .literalValue do
  let l ← mark "\x7b"
  let items ← orNothing (separated "," (literalItem g))
  let c ← optionalMark ","
  let r ← mark "\x7d"
  return l :: items ++ c ++ [r]

/-! ### Types in the place of operands -/

/-- Whether the tokens begin with a brace whose partner is followed on the same line by a brace or
by more of an expression, so that the braces hold a literal value and not a block. -/
def literalBraces : Nat → List Token → Bool
  | _, [] => false
  | depth, t :: ts =>
    if t.is "\x7b" then literalBraces (depth + 1) ts
    else if t.is "\x7d" then
      if depth ≤ 1 then
        match ts with
        | [] => false
        | n :: _ =>
          !n.afterLineFeed && ["\x7b", ".", "(", "[", "==", "!=", "<", ">", "<=", ">=", "+", "-",
            "*", "/", "%", "&", "|", "^", "<<", ">>", "&^", "&&", "||"].any fun s => n.is s
      else literalBraces (depth - 1) ts
    else literalBraces depth ts

/-- Whether the text of an identifier is one of the words that name no type. -/
def isOperandWord (text : List Char) : Bool := operandWords.any fun w => text == w.toList

/-- The type that an expression spells, if it can spell one. -/
def typeOfExpression? : Node → Option Node
  | .leaf .identifier l t => if isOperandWord t then none else some (.leaf .typeIdentifier l t)
  | .branch .selectorExpression [(_, .leaf .identifier l t), dot, (_, .leaf _ l' t')] =>
    if isOperandWord t then none
    else some (.branch .qualifiedType
      [(.package, .leaf .packageIdentifier l t), dot, (.name, .leaf .typeIdentifier l' t')])
  | .branch .unaryExpression [(_, .leaf .mark l ['*']), (_, n)] =>
    (typeOfExpression? n).map fun t =>
      .branch .pointerType [(.part, .leaf .mark l ['*']), (.part, t)]
  | .branch .typeInstantiationExpression parts => some (.branch .genericType parts)
  | .branch .indexExpression [(_, base), l, (_, index), r] =>
    match typeOfExpression? base, typeOfExpression? index with
    | some b, some i =>
      if b.kind == .genericType then none
      else some (.branch .genericType [(.type, b),
        (.typeArguments, .branch .typeArguments [l, (.part, .branch .typeElement [(.part, i)]), r])])
    | _, _ => none
  | _ => none

/-- Whether a type can be the type of a composite literal when it is spelt as an expression. -/
def isLiteralName (n : Node) : Bool :=
  n.kind == .typeIdentifier || n.kind == .qualifiedType || n.kind == .genericType

/-- The type of the composite literal that an expression begins, if a literal value follows. -/
def literalTypeOf? (c : Context) (x : Node) : Parser (Option Node) := do
  let ts ← get
  match typeOfExpression? x with
  | some t =>
    if !isLiteralName t then return none
    else if !c.braceIsBlock then return some t
    else if t.kind == .typeIdentifier then return none
    else return if literalBraces 0 ts then some t else none
  | none => return none

/-- A conversion of an expression to a type. -/
def conversion (g : Grammar) (t : Node) : Parser Node := phrase .typeConversionExpression do
  let l ← mark "("
  let x ← g.expression inner
  let c ← optionalMark ","
  let r ← mark ")"
  return [(.type, t), l, (.operand, x)] ++ c ++ [r]

/-- A composite literal or a conversion after its type. -/
def afterType (g : Grammar) (t : Node) : Parser Node := do
  if ← nextIs "\x7b" then
    if [Kind.mapType, .sliceType, .arrayType, .structType].contains t.kind then
      return .branch .compositeLiteral [(.type, t), (.body, ← g.literalValue)]
    else failure
  else conversion g t

/-! ### Operands -/

/-- A function literal, or a conversion to a function type. -/
def functionOperand (g : Grammar) : Parser Node :=
  (phrase .funcLiteral do
    let f ← mark "func"
    let ps ← parameterList g
    let r ← result g (simpleType g) false
    return [f, (.parameters, ps)] ++ r ++ [(.body, ← g.block)]) <|>
  (do afterType g (← simpleType g false))

/-- A parenthesized expression, or a conversion to a parenthesized type. -/
def parenthesizedOperand (g : Grammar) : Parser Node :=
  (phrase .parenthesizedExpression do
    let l ← mark "("
    let x ← g.expression inner
    let r ← mark ")"
    return [l, (.part, x), r]) <|>
  (do
    let t ← typeNode g false
    conversion g t)

/-- An operand that begins with a bracket. -/
def bracketOperand (g : Grammar) : Parser Node := do
  if ← nextAre ["[", "..."] then
    phrase .compositeLiteral do
      let t ← phrase .implicitLengthArrayType do
        let l ← mark "["
        let d ← mark "..."
        let r ← mark "]"
        return [l, d, r, (.element, ← g.type false)]
      return [(.type, t), (.body, ← g.literalValue)]
  else afterType g (← simpleType g false)

/-- An operand that is a word. -/
def wordOperand (g : Grammar) (t : Token) : Parser Node := do
  if t.is "func" then functionOperand g
  else if t.is "map" || t.is "chan" || t.is "struct" || t.is "interface" then
    afterType g (← simpleType g false)
  else if !t.isName then failure
  else if t.is "nil" then take .nil
  else if t.is "true" then take .true
  else if t.is "false" then take .false
  else if t.is "iota" then take .iota
  else take .identifier

/-- An operand. -/
def operandNode (g : Grammar) : Parser Node := do
  let some t ← peek | failure
  match t.kind with
  | .word => wordOperand g t
  | .int => take .intLiteral
  | .float => take .floatLiteral
  | .imaginary => take .imaginaryLiteral
  | .rune => take .runeLiteral
  | .rawString => take .rawStringLiteral
  | .string => take .interpretedStringLiteral
  | .symbol =>
    if t.is "(" then parenthesizedOperand g
    else if t.is "[" then bracketOperand g
    else failure
  | .nul => failure

/-! ### What follows an operand -/

/-- An argument of a call. -/
def argument (g : Grammar) : Parser Parts := do
  let x ← g.expression inner
  if ← nextIs "..." then
    return [(.part, .branch .variadicArgument [(.part, x), ← mark "..."])]
  else return [(.part, x)]

/-- The arguments of a call. -/
def argumentList (g : Grammar) : Parser Node := phrase .argumentList do
  let l ← mark "("
  let items ← orNothing do
    let xs ← separated "," (argument g)
    let c ← optionalMark ","
    return xs ++ c
  let r ← mark ")"
  return l :: items ++ [r]

/-- The arguments of an allocation, the first of which is a type. -/
def allocationArguments (g : Grammar) : Parser Node := phrase .argumentList do
  let l ← mark "("
  let items ← orNothing do
    let t ← g.type false
    let xs ← separatedTail false "," (inRole .part (g.expression inner))
    let c ← optionalMark ","
    return (.part, t) :: xs ++ c
  let r ← mark ")"
  return l :: items ++ [r]

/-- Whether an operand is one of the names whose first argument is a type. -/
def isAllocator : Node → Bool
  | .leaf .identifier _ t => t == "new".toList || t == "make".toList
  | _ => false

/-- A call of an operand. -/
def callNode (g : Grammar) (x : Node) : Parser Node := do
  let arguments ← if isAllocator x then allocationArguments g else argumentList g
  return .branch .callExpression [(.function, x), (.arguments, arguments)]

/-- The bounds of a slice after its first bound. -/
def sliceBounds (g : Grammar) : Parser Parts := do
  let colon ← mark ":"
  let limit ← orNothing (inRole .end (g.expression inner))
  if !limit.isEmpty && (← nextIs ":") then
    let colon' ← mark ":"
    return colon :: limit ++ [colon', (.capacity, ← g.expression inner)]
  else return colon :: limit

/-- An index, a slice or type arguments after an operand. -/
def bracketNode (g : Grammar) (x : Node) : Parser Node :=
  (do
    let l ← mark "["
    let start ← orNothing (inRole .start (g.expression inner))
    if ← nextIs ":" then
      let bounds ← sliceBounds g
      let r ← mark "]"
      return .branch .sliceExpression ([(.operand, x), l] ++ start ++ bounds ++ [r])
    else
      let r ← mark "]"
      match start with
      | [(_, i)] => return .branch .indexExpression [(.operand, x), l, (.index, i), r]
      | _ => failure) <|>
  (do
    match typeOfExpression? x with
    | some t =>
      let arguments ← typeArguments g
      return .branch .typeInstantiationExpression [(.type, t), (.typeArguments, arguments)]
    | none => failure)

/-- A selector or a type assertion after an operand. -/
def dotNode (g : Grammar) (x : Node) : Parser Node := do
  let dot ← mark "."
  if ← nextIs "(" then
    let l ← mark "("
    let t ← g.type false
    let r ← mark ")"
    return .branch .typeAssertionExpression [(.operand, x), dot, l, (.type, t), r]
  else
    let f ← name .fieldIdentifier
    return .branch .selectorExpression [(.operand, x), dot, (.field, f)]

/-- An operand with all that follows it, at most `fuel` parts. -/
def extend (g : Grammar) (c : Context) : Nat → Node → Parser Node
  | 0, x => return x
  | fuel + 1, x => do
    let some t ← peek | return x
    if c.lineFeedEnds && t.afterLineFeed then return x
    else if t.is "." then
      if ← nextAre [".", "(", "type"] then return x
      else extend g c fuel (← dotNode g x)
    else if t.is "(" then extend g c fuel (← callNode g x)
    else if t.is "[" then extend g c fuel (← bracketNode g x)
    else if t.is "\x7b" then
      match ← literalTypeOf? c x with
      | some t =>
        extend g c fuel (.branch .compositeLiteral [(.type, t), (.body, ← g.literalValue)])
      | none => return x
    else return x

/-- An operand with all that follows it. -/
def primaryNode (g : Grammar) (c : Context) : Parser Node := do
  let x ← operandNode g
  extend g c (← get).length x

/-! ### Operators -/

/-- The unary operators. -/
def unaryOperators : List String := ["+", "-", "!", "^", "*", "&", "<-"]

/-- Operators that stand for two unary ones in front of an operand. -/
def doubledUnary : List (String × String × String) :=
  [("&&", "&", "&"), ("++", "+", "+"), ("--", "-", "-"), ("&^", "&", "^")]

/-- An operand with the unary operators in front of it. -/
def unaryNode (g : Grammar) (c : Context) : Parser Node := do
  let some t ← peek | failure
  if t.kind == .symbol then
    if let some (_, a, b) := doubledUnary.find? fun d => t.is d.1 then splitToken a b
  let some t ← peek | failure
  if t.kind == .symbol && unaryOperators.any fun s => t.is s then
    (do
      let op ← take .mark
      let x ← g.unary c
      return .branch .unaryExpression [(.operator, op), (.operand, x)]) <|>
    (if t.is "<-" then do afterType g (← simpleType g false) else failure)
  else primaryNode g c

/-- The binary operators with their levels. -/
def binaryOperators : List (String × Nat) := [
  ("*", 5), ("/", 5), ("%", 5), ("<<", 5), (">>", 5), ("&", 5), ("&^", 5), ("+", 4), ("-", 4),
  ("|", 4), ("^", 4), ("==", 3), ("!=", 3), ("<", 3), ("<=", 3), (">", 3), (">=", 3), ("&&", 2),
  ("||", 1)]

/-- Marks of statements that stand for a binary and a unary operator inside an expression. -/
def splitOperators : List (String × String × String) :=
  [("<-", "<", "-"), ("++", "+", "+"), ("--", "-", "-")]

/-- An expression after its left operand: all binary operators of at least the given level, at most
`fuel` of them. -/
def binaryFrom (g : Grammar) (c : Context) : Nat → Nat → Node → Parser Node
  | 0, _, x => return x
  | fuel + 1, level, x => do
    let some t ← peek | return x
    if c.lineFeedEnds && t.afterLineFeed then return x
    if !c.beginsStatement && t.kind == .symbol then
      if let some (_, a, b) := splitOperators.find? fun d => t.is d.1 then splitToken a b
    let some t ← peek | return x
    if t.kind != .symbol then return x
    match binaryOperators.find? fun o => t.is o.1 with
    | some (_, l) =>
      if l < level then return x
      else
        let op ← take .mark
        let y ← unaryNode g c
        let y ← binaryFrom g c fuel (l + 1) y
        binaryFrom g c fuel level
          (.branch .binaryExpression [(.left, x), (.operator, op), (.right, y)])
    | none => return x

/-- An expression. -/
def binaryNode (g : Grammar) (c : Context) : Parser Node := do
  let x ← unaryNode g c
  binaryFrom g c (← get).length 1 x

/-- Expressions with commas between them. -/
def expressionList (g : Grammar) (c : Context) : Parser Node :=
  phrase .expressionList (separatedOn c.lineFeedEnds "," (inRole .part (g.expression c)))

end ProviderCatalog.Go
