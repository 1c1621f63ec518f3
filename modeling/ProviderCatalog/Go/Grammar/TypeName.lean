import ProviderCatalog.Go.Grammar.Basic

/-!
# Types and signatures

The parsers of types, of the fields and methods inside them, and of the parameter lists and results
that signatures are made of. In a list of parameters a name without a type shares the type of the
next parameter that has both; if there is none, it is a type itself.

## Main definitions

* `typeNode`, `simpleType`: types, with and without parentheses.
* `typeArguments`, `typeParameters`: the lists in brackets.
* `parameterList`, `result`: the parts of a signature.
-/

namespace ProviderCatalog.Go

/-- A union of types. -/
def typeElement (g : Grammar) (lineFeedEnds : Bool) : Parser Node :=
  phrase .typeElement <| separatedOn lineFeedEnds "|" <| inRole .part <| g.type lineFeedEnds

/-- Type arguments in brackets. -/
def typeArguments (g : Grammar) : Parser Node := phrase .typeArguments do
  let l ← mark "["
  let ts ← separated "," (inRole .part (typeElement g false))
  let c ← optionalMark ","
  let r ← mark "]"
  return l :: ts ++ c ++ [r]

/-- A type by its name, which a package may qualify and arguments may follow. -/
def namedType (g : Grammar) (lineFeedEnds : Bool) : Parser Node := do
  let first ← name .typeIdentifier
  let base ←
    if ← continuesWith lineFeedEnds "." then
      let package := match first with
        | .leaf _ l t => Node.leaf .packageIdentifier l t
        | n => n
      let dot ← mark "."
      let n ← name .typeIdentifier
      pure (Node.branch .qualifiedType [(.package, package), dot, (.name, n)])
    else pure first
  if ← continuesWith lineFeedEnds "[" then
    (do
      let arguments ← typeArguments g
      return .branch .genericType [(.type, base), (.typeArguments, arguments)]) <|> return base
  else return base

/-! ### Signatures -/

/-- A parameter as it is written. -/
inductive Parameter where
  /-- A name alone, or a type that is a name. -/
  | bare (n : Node)
  | named (n type : Node)
  | typed (type : Node)
  | variadic (parts : Parts)

/-- A parameter of a list. -/
def parameter (g : Grammar) : Parser Parameter :=
  (do
    let n ← inRole .name (name .identifier) <|> return []
    let dots ← mark "..."
    let t ← g.type false
    return .variadic (n ++ [dots, (.type, t)])) <|>
  (do
    let n ← name .identifier
    let t ← g.type false
    return .named n t) <|>
  (do
    match ← g.type false with
    | .leaf .typeIdentifier l t => return .bare (.leaf .identifier l t)
    | t => return .typed t)

/-- A name that stands for a type. -/
def asType : Node → Node
  | .leaf _ l t => .leaf .typeIdentifier l t
  | n => n

/-- Pending names, the last one first, as declarations of parameters without names. -/
def unnamed : Parts → Parts
  | [] => []
  | (.part, comma) :: rest => unnamed rest ++ [(.part, comma)]
  | (_, n) :: rest => unnamed rest ++ [(.part, .branch .parameterDeclaration [(.type, asType n)])]

/-- The declarations of parameters, each with the separator after it. The names that wait for a
type are pending, the last one first. -/
def declarations (pending : Parts) : List (Parameter × Parts) → Parts
  | [] => unnamed pending
  | (.bare n, comma) :: rest => declarations (comma.reverse ++ (.name, n) :: pending) rest
  | (.named n t, comma) :: rest =>
    (.part, .branch .parameterDeclaration (pending.reverse ++ [(.name, n), (.type, t)])) ::
      comma ++ declarations [] rest
  | (.typed t, comma) :: rest =>
    unnamed pending ++ (.part, .branch .parameterDeclaration [(.type, t)]) ::
      comma ++ declarations [] rest
  | (.variadic ps, comma) :: rest =>
    unnamed pending ++ (.part, .branch .variadicParameterDeclaration ps) ::
      comma ++ declarations [] rest

/-- Parameters in parentheses. -/
def parameterList (g : Grammar) : Parser Node := phrase .parameterList do
  let l ← mark "("
  let ps ← many do
    let p ← parameter g
    let comma ← optionalMark ","
    unless !comma.isEmpty || (← nextIs ")") do failure
    return (p, comma)
  let comma ← if ps.isEmpty then optionalMark "," else pure []
  let r ← mark ")"
  return l :: declarations [] ps ++ comma ++ [r]

/-- A declaration of type parameters with one constraint. -/
def typeParameterDeclaration (g : Grammar) : Parser Node := phrase .typeParameterDeclaration do
  let names ← separated "," (inRole .name (name .identifier))
  let t ← typeElement g false
  return names ++ [(.type, t)]

/-- Type parameters in brackets. -/
def typeParameters (g : Grammar) : Parser Node := phrase .typeParameterList do
  let l ← mark "["
  let ps ← separated "," (inRole .part (typeParameterDeclaration g))
  let c ← optionalMark ","
  let r ← mark "]"
  return l :: ps ++ c ++ [r]

/-- Whether a token can begin a type without parentheses. -/
def beginsSimpleType (t : Token) : Bool :=
  t.isName ||
    ["*", "[", "map", "chan", "func", "struct", "interface", "<-", "~"].any fun s => t.is s

/-! ### Types -/

/-- A field of a structure: names with a type, or an embedded type, and a tag. -/
def fieldDeclaration (g : Grammar) : Parser Node := phrase .fieldDeclaration do
  let field ← (do
      let names ← separated "," (inRole .name (name .fieldIdentifier))
      if names.length = 1 && (← peek).any (·.afterLineFeed) then failure
      let t ← g.type true
      return names ++ [(.type, t)]) <|> (do
      let star ← optionalMark "*"
      let t ← namedType g true
      return star ++ [(.type, t)])
  let tag ← match ← peek with
    | some t =>
      if t.afterLineFeed then pure []
      else if t.kind == .string then inRole .tag (take .interpretedStringLiteral)
      else if t.kind == .rawString then inRole .tag (take .rawStringLiteral)
      else pure []
    | none => pure []
  return field ++ tag

/-- Elements in braces with ends of statements between them, and perhaps after the last. -/
def bracedElements (p : Parser Node) : Parser Parts := do
  let l ← mark "\x7b"
  let elements ← orNothing do
    let first ← inRole .part p
    let rest ← many do
      let e ← terminator
      let x ← inRole .part p
      return e ++ x
    let last ← orNothing terminator
    return first ++ rest.flatten ++ last
  let r ← mark "\x7d"
  return l :: elements ++ [r]

/-- The result of a signature, if it has one. -/
def result (g : Grammar) (simple : Bool → Parser Node) (lineFeedEnds : Bool) : Parser Parts := do
  match ← peek with
  | some t =>
    if lineFeedEnds && t.afterLineFeed then return []
    else if t.is "(" then inRole .result (parameterList g)
    else if beginsSimpleType t then inRole .result (simple lineFeedEnds)
    else return []
  | none => return []

/-- A type that is no parenthesized one, where function types and methods take their results from
the grammar. -/
def simpleType (g : Grammar) (lineFeedEnds : Bool) : Parser Node := do
  let some t ← peek | failure
  if t.isName then namedType g lineFeedEnds
  else if t.is "*" then phrase .pointerType do
    let s ← mark "*"
    return [s, (.part, ← g.type lineFeedEnds)]
  else if t.is "~" then phrase .negatedType do
    let s ← mark "~"
    return [s, (.part, ← g.type lineFeedEnds)]
  else if t.is "[" then
    if ← nextAre ["[", "]"] then phrase .sliceType do
      let l ← mark "["
      let r ← mark "]"
      return [l, r, (.element, ← g.type lineFeedEnds)]
    else phrase .arrayType do
      let l ← mark "["
      let n ← g.expression inner
      let r ← mark "]"
      return [l, (.length, n), r, (.element, ← g.type lineFeedEnds)]
  else if t.is "map" then phrase .mapType do
    let m ← mark "map"
    let l ← mark "["
    let k ← g.type false
    let r ← mark "]"
    return [m, l, (.key, k), r, (.value, ← g.type lineFeedEnds)]
  else if t.is "chan" then phrase .channelType do
    let c ← mark "chan"
    let arrow ← optionalMark "<-"
    return c :: arrow ++ [(.value, ← g.type lineFeedEnds)]
  else if t.is "<-" then phrase .channelType do
    let arrow ← mark "<-"
    let c ← mark "chan"
    return [arrow, c, (.value, ← g.type lineFeedEnds)]
  else if t.is "func" then phrase .functionType do
    let f ← mark "func"
    let ps ← parameterList g
    return [f, (.parameters, ps)] ++ (← result g g.type lineFeedEnds)
  else if t.is "struct" then phrase .structType do
    let s ← mark "struct"
    return [s, (.part, ← phrase .fieldDeclarationList (bracedElements (fieldDeclaration g)))]
  else if t.is "interface" then phrase .interfaceType do
    let i ← mark "interface"
    let elements ← bracedElements <|
      (phrase .methodElement do
        let n ← name .fieldIdentifier
        let ps ← parameterList g
        return [(.name, n), (.parameters, ps)] ++ (← result g g.type true)) <|>
      typeElement g true
    return i :: elements
  else failure

/-- A type. -/
def typeNode (g : Grammar) (lineFeedEnds : Bool) : Parser Node := do
  if ← nextIs "(" then phrase .parenthesizedType do
    let l ← mark "("
    let t ← g.type false
    let r ← mark ")"
    return [l, (.part, t), r]
  else simpleType g lineFeedEnds

end ProviderCatalog.Go
