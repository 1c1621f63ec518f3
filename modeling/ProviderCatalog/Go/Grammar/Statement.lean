import ProviderCatalog.Go.Grammar.Expression

/-!
# Declarations and statements

The parsers of the declarations that can stand in a block and of the statements. Statements of a
block are separated by line feeds or semicolons.

## Main definitions

* `declaration`: constants, variables and types.
* `simpleStatement`: statements without keywords.
* `statementNode`, `blockNode`: all statements, and blocks of them.
-/

namespace ProviderCatalog.Go

/-! ### Declarations -/

/-- A declaration of constants. -/
def constSpec (g : Grammar) : Parser Node := phrase .constSpec do
  let names ← separatedOn true "," (inRole .name (name .identifier))
  let value ← orNothing do
    let t ←
      if (← peek).any (fun t => !t.afterLineFeed && !t.is "=") then inRole .type (g.type true)
      else pure []
    if !(← continuesWith true "=") then failure
    let eq ← mark "="
    return t ++ [eq, (.value, ← expressionList g ⟨true, false, false⟩)]
  return names ++ value

/-- A declaration of variables. -/
def varSpec (g : Grammar) : Parser Node := phrase .varSpec do
  let names ← separated "," (inRole .name (name .identifier))
  let values : Parser Parts := do
    let eq ← mark "="
    return [eq, (.value, ← expressionList g ⟨true, false, false⟩)]
  if ← nextIs "=" then return names ++ (← values)
  else
    let t ← g.type true
    if ← continuesWith true "=" then return names ++ (.type, t) :: (← values)
    else return names ++ [(.type, t)]

/-- A declaration of a type or of another name for one. -/
def typeSpec (g : Grammar) : Parser Node := do
  let n ← name .typeIdentifier
  let rest (ps : Parts) : Parser Node := do
    if ← nextIs "=" then
      let eq ← mark "="
      return .branch .typeAlias ((.name, n) :: ps ++ [eq, (.type, ← g.type true)])
    else return .branch .typeSpec ((.name, n) :: ps ++ [(.type, ← g.type true)])
  (do rest (← inRole .typeParameters (typeParameters g))) <|> rest []

/-- Declarations in parentheses, each with an end of statement after it. -/
def grouped (p : Parser Node) : Parser Parts := do
  let l ← mark "("
  let specs ← many do
    let s ← inRole .part p
    return s ++ (← terminator)
  let r ← mark ")"
  return l :: specs.flatten ++ [r]

/-- The declaration that the next keyword begins. -/
def declaration (g : Grammar) : Parser Node := do
  if ← nextIs "const" then phrase .constDeclaration do
    let k ← mark "const"
    return k :: (← if ← nextIs "(" then grouped (constSpec g) else inRole .part (constSpec g))
  else if ← nextIs "var" then phrase .varDeclaration do
    let k ← mark "var"
    if ← nextIs "(" then
      return [k, (.part, ← phrase .varSpecList (grouped (varSpec g)))]
    else return k :: (← inRole .part (varSpec g))
  else if ← nextIs "type" then phrase .typeDeclaration do
    let k ← mark "type"
    return k :: (← if ← nextIs "(" then grouped (typeSpec g) else inRole .part (typeSpec g))
  else failure

/-! ### Statements without keywords -/

/-- The assignment operators. -/
def assignmentOperators : List String :=
  ["=", "*=", "/=", "%=", "<<=", ">>=", "&=", "&^=", "+=", "-=", "|=", "^="]

/-- The only expression of a list. -/
def onlyExpression? : Node → Option Node
  | .branch .expressionList [(_, x)] => some x
  | _ => none

/-- The rest of a statement after its expressions on the left; `right` is the place of the
expressions on the right. -/
def afterLeft (g : Grammar) (c right : Context) (left : Node) : Parser Node := do
  let expressionAlone : Parser Node :=
    match onlyExpression? left with
    | some x => return .branch .expressionStatement [(.part, x)]
    | none => failure
  let some t ← peek | expressionAlone
  if c.lineFeedEnds && t.afterLineFeed then expressionAlone
  else if t.is ":=" then
    let op ← mark ":="
    return .branch .shortVarDeclaration
      [(.left, left), op, (.right, ← expressionList g right)]
  else if t.kind == .symbol && assignmentOperators.any fun s => t.is s then
    let op ← take .mark
    return .branch .assignmentStatement
      [(.left, left), (.operator, op), (.right, ← expressionList g right)]
  else match onlyExpression? left with
    | none => failure
    | some x =>
      if t.is "++" then return .branch .incStatement [(.part, x), ← mark "++"]
      else if t.is "--" then return .branch .decStatement [(.part, x), ← mark "--"]
      else if t.is "<-" then
        let arrow ← mark "<-"
        return .branch .sendStatement [(.channel, x), arrow, (.value, ← g.expression right)]
      else return .branch .expressionStatement [(.part, x)]

/-- A statement without a keyword. -/
def simpleStatement (g : Grammar) (c right : Context) : Parser Node := do
  afterLeft g c right (← expressionList g c)

/-- The place of the right side of an assignment at a statement. -/
def atRight : Context := ⟨true, false, false⟩

/-- The place of the right side of an assignment that a block follows. -/
def atHeaderRight : Context := ⟨false, true, false⟩

/-! ### Control statements -/

/-- A statement list with the ends of its statements. -/
def statementParts (g : Grammar) : Parser Parts := do
  let first ← inRole .part g.statement
  let rest ← many do
    let e ← terminator
    let s ← inRole .part g.statement
    return e ++ s
  let last ← orNothing do
    let e ← terminator
    let label ← orNothing (inRole .part (phrase .labeledStatement do
      let n ← name .labelName
      return [(.label, n), ← mark ":"]))
    return e ++ label
  return first ++ rest.flatten ++ last

/-- A statement list, or nothing if no statement follows. -/
def statements (g : Grammar) : Parser Parts :=
  inRole .part (phrase .statementList (statementParts g)) <|>
  inRole .part (phrase .statementList (inRole .part (phrase .labeledStatement do
    let n ← name .labelName
    return [(.label, n), ← mark ":"]))) <|>
  return []

/-- Statements in braces. -/
def blockNode (g : Grammar) : Parser Node := phrase .block do
  let l ← mark "\x7b"
  let ss ← statements g
  let r ← mark "\x7d"
  return l :: ss ++ [r]

/-- A conditional statement. -/
def ifNode (g : Grammar) : Parser Node := phrase .ifStatement do
  let k ← mark "if"
  let first ← simpleStatement g atHeader ⟨false, false, false⟩
  let header ←
    if ← nextIs ";" then
      let semicolon ← mark ";"
      let x ← g.expression atHeaderRight
      pure [(Role.initializer, first), semicolon, (.condition, x)]
    else match first with
      | .branch .expressionStatement [(_, x)] => pure [(.condition, x)]
      | _ => failure
  let body ← g.block
  let otherwise ←
    if ← continuesWith true "else" then
      let e ← mark "else"
      if ← nextIs "if" then pure [e, (.alternative, ← g.ifStatement)]
      else pure [e, (.alternative, ← g.block)]
    else pure []
  return k :: header ++ [(.consequence, body)] ++ otherwise

/-- The range of a loop. -/
def rangeClause (g : Grammar) : Parser Node := phrase .rangeClause do
  let left ← orNothing do
    let l ← expressionList g atHeader
    let op ← mark ":=" <|> mark "="
    return [(.left, l), op]
  let r ← mark "range"
  return left ++ [r, (.right, ← g.expression atHeaderRight)]

/-- The three parts of a counting loop. -/
def forClause (g : Grammar) : Parser Node := phrase .forClause do
  let initial ← orNothing (inRole .initializer (simpleStatement g atHeader inner))
  let s ← mark ";"
  let condition ← orNothing (inRole .condition (g.expression inner))
  let s' ← mark ";"
  let update ← orNothing (inRole .update (simpleStatement g atHeader atHeaderRight))
  return initial ++ [s] ++ condition ++ [s'] ++ update

/-- A loop. -/
def forNode (g : Grammar) : Parser Node := phrase .forStatement do
  let k ← mark "for"
  if ← nextIs "\x7b" then return [k, (.body, ← g.block)]
  else
    (do return [k, (.part, ← rangeClause g), (.body, ← g.block)]) <|>
    (do return [k, (.part, ← forClause g), (.body, ← g.block)]) <|>
    (do return [k, (.part, ← g.expression atHeader), (.body, ← g.block)])

/-- The cases of a switch, each with its keyword and what follows the keyword up to the colon. -/
def cases (g : Grammar) (kind : Kind) (header : Parser Parts) : Parser Parts := do
  let l ← mark "\x7b"
  let cs ← many do
    if ← nextIs "default" then inRole .part (phrase .defaultCase do
      let d ← mark "default"
      let colon ← mark ":"
      return d :: colon :: (← statements g))
    else inRole .part (phrase kind do
      let k ← mark "case"
      let h ← header
      let colon ← mark ":"
      return k :: h ++ colon :: (← statements g))
  let r ← mark "\x7d"
  return l :: cs.flatten ++ [r]

/-- The mark of a type switch after its value. -/
def typeMark : Parser Parts := do
  return [← mark ".", ← mark "(", ← mark "type", ← mark ")"]

/-- The cases of a type switch. -/
def typeCases (g : Grammar) : Parser Parts :=
  cases g .typeCase (separated "," (inRole .type (g.type false)))

/-- The cases of a switch over values. -/
def valueCases (g : Grammar) : Parser Parts :=
  cases g .expressionCase (inRole .value (expressionList g inner))

/-- The header of a type switch. -/
def typeSwitchHeader (g : Grammar) : Parser Parts := do
  let shorthand ← orNothing do
    let l ← expressionList g atHeader
    return [(.symbol, l), ← mark ":="]
  let x ← g.expression ⟨false, shorthand.isEmpty, false⟩
  return shorthand ++ (.value, x) :: (← typeMark)

/-- A switch after its keyword and its initial statement. -/
def afterSwitch (g : Grammar) (front : Parts) : Parser Node :=
  (do
    let h ← typeSwitchHeader g
    return .branch .typeSwitchStatement (front ++ h ++ (← typeCases g))) <|>
  (do
    let value ← if ← nextIs "\x7b" then pure [] else inRole .value (g.expression atHeaderRight)
    return .branch .expressionSwitchStatement (front ++ value ++ (← valueCases g)))

/-- A switch. -/
def switchNode (g : Grammar) : Parser Node := do
  let k ← mark "switch"
  (do
    let first ← simpleStatement g atHeader ⟨false, false, false⟩
    let semicolon ← mark ";"
    afterSwitch g [k, (.initializer, first), semicolon]) <|> afterSwitch g [k]

/-- A communication of a selection. -/
def communication (g : Grammar) : Parser Node :=
  (phrase .receiveStatement do
    let l ← expressionList g ⟨false, false, true⟩
    let op ← mark ":=" <|> mark "="
    return [(.left, l), op, (.right, ← g.expression inner)]) <|>
  (phrase .sendStatement do
    let x ← g.expression ⟨false, false, true⟩
    let arrow ← mark "<-"
    return [(.channel, x), arrow, (.value, ← g.expression inner)]) <|>
  phrase .receiveStatement (inRole .right (g.expression inner))

/-- A selection among communications. -/
def selectNode (g : Grammar) : Parser Node := phrase .selectStatement do
  let k ← mark "select"
  return k :: (← cases g .communicationCase (inRole .communication (communication g)))

/-- A jump, with its label if one follows on the same line. -/
def jump (kind : Kind) (keyword : String) : Parser Node := phrase kind do
  let k ← mark keyword
  if (← peek).any fun t => t.isName && !t.afterLineFeed then
    return [k, (.label, ← name .labelName)]
  else return [k]

/-- A return, with the values that follow on the same line. -/
def returnNode (g : Grammar) : Parser Node := phrase .returnStatement do
  let k ← mark "return"
  if (← peek).any (·.afterLineFeed) then return [k]
  else return k :: (← orNothing (inRole .part (expressionList g atRight)))

/-- A statement after its label. -/
def labeled (g : Grammar) : Parser Node := phrase .labeledStatement do
  let n ← name .labelName
  let colon ← mark ":"
  return [(.label, n), colon, (.part, ← g.statement)]

/-- The statement that a keyword begins, where one does. -/
def keywordStatement? (g : Grammar) (t : Token) : Option (Parser Node) :=
  if t.is "const" || t.is "var" || t.is "type" then some (declaration g)
  else if t.is "return" then some (returnNode g)
  else if t.is "go" then some <| phrase .goStatement do
    let k ← mark "go"
    return [k, (.part, ← g.expression atRight)]
  else if t.is "defer" then some <| phrase .deferStatement do
    let k ← mark "defer"
    return [k, (.part, ← g.expression atRight)]
  else if t.is "if" then some g.ifStatement
  else if t.is "for" then some (forNode g)
  else if t.is "switch" then some (switchNode g)
  else if t.is "select" then some (selectNode g)
  else if t.is "break" then some (jump .breakStatement "break")
  else if t.is "continue" then some (jump .continueStatement "continue")
  else if t.is "goto" then some <| phrase .gotoStatement do
    let k ← mark "goto"
    return [k, (.label, ← name .labelName)]
  else if t.is "fallthrough" then some (phrase .fallthroughStatement (do return [← mark "fallthrough"]))
  else none

/-- A statement. -/
def statementNode (g : Grammar) : Parser Node := do
  let some t ← peek | failure
  match keywordStatement? g t with
  | some p => p
  | none =>
    if t.is "\x7b" then g.block
    else if t.is ";" then phrase .emptyStatement (do return [← mark ";"])
    else if t.isName && !operandWords.any (fun w => t.is w) &&
        (← get).tail.head?.any (fun c => c.is ":" && !c.afterLineFeed) then labeled g
    else simpleStatement g atStatement atRight

end ProviderCatalog.Go
