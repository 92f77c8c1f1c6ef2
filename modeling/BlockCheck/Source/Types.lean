import BlockCheck.Text.Affix
import BlockCheck.Text.Word
import BlockCheck.Source.Grammar

/-!
# Type expressions

From the loosest to the tightest: `readonly` and function types take all that follows, then come
conditionals, unions, intersections, and last the suffixes in brackets.
-/

namespace BlockCheck.Source

open BlockCheck.Source.Parser

/-- A text without the quotes around it, if it has them. -/
def unquote (text : String) : String :=
  match text.toList with
  | q :: c :: rest =>
    if (q = '"' || q = '\'' || q = '`') && (c :: rest).getLast? = some q then
      String.ofList (c :: rest).dropLast
    else text
  | _ => text

def ignoreTag : List Char := "@ignore".toList

def hasIgnoreTag : List Char → Bool
  | [] => false
  | c :: rest =>
    (ignoreTag.isPrefixOf (c :: rest)
      && !((c :: rest).drop ignoreTag.length).head?.any Text.isWord) || hasIgnoreTag rest

/-- A documentation comment that marks what follows it as ignored. -/
def marksIgnored (comment : String) : Bool :=
  Text.startsWith comment "/**" && hasIgnoreTag comment.toList

/-! ## Names and parameters -/

def propertyName (g : Grammar) : Parser String := do
  let start ← get
  discard word <|> string <|> number <|> (do sign "["; discard g.expressions; sign "]")
    <|> (do guard (← looksAt "#"); takeInside 1; discard word)
  textSince start

/-- Something that can begin the name of a property follows. -/
def nameFollows : Parser Unit := do
  match (← get).rest with
  | c :: _ => guard (isNamePart c || c = '"' || c = '\'' || c = '[' || c = '#' || c = '*')
  | [] => failure

def modifierWords : List String :=
  ["public", "private", "protected", "static", "override", "readonly", "abstract", "declare",
    "accessor", "async"]

/-- Words in front of a property's name. -/
def modifiers : Parser Unit := skipMany (keywordOf modifierWords *> nameFollows)

def decorators (g : Grammar) : Parser Unit := skipMany do
  sign "@"
  (do sign "("; discard g.expressions; sign ")") <|> do
    discard word
    skipMany (sign "." *> word)
    skipMany (do sign "("; discard (listUntil ")" (skipOptional (sign "...") *> g.expression)))

def initializer (g : Grammar) : Parser Value := do
  signBut "=" ['=', '>']
  g.expression

def ascription (g : Grammar) : Parser TypeExpr := sign ":" *> g.type

/-- What a function returns: a type, or what its result says about a parameter. -/
def returned (g : Grammar) : Parser Unit :=
  (do keyword "asserts"; discard word; skipOptional (keyword "is" *> g.type))
    <|> (do discard word; keyword "is"; discard g.type)
    <|> discard g.type

def returnType (g : Grammar) : Parser Unit := sign ":" *> returned g

def parameter (g : Grammar) : Parser (Option TypeExpr) := do
  decorators g
  skipMany do
    keywordOf modifierWords
    match (← get).rest with
    | c :: _ => guard (isNamePart c || c = '\x7b' || c = '[')
    | [] => failure
  skipOptional (sign "...")
  g.pattern
  skipOptional (sign "?")
  let type ← optional (ascription g)
  skipOptional (initializer g)
  return type

def parameters (g : Grammar) : Parser (List (Option TypeExpr)) := do
  sign "("
  listUntil ")" (parameter g)

def typeParameters (g : Grammar) : Parser Unit := do
  sign "<"
  discard <| listUntil ">" do
    skipMany do
      keywordOf ["const", "in", "out"]
      guard (← nextWord).isSome
    discard word
    skipOptional (keyword "extends" *> g.type)
    skipOptional (signBut "=" ['>'] *> g.type)

def callSignature (g : Grammar) : Parser Unit := do
  skipOptional (typeParameters g)
  discard (parameters g)
  skipOptional (returnType g)

def typeArguments (g : Grammar) : Parser (List TypeExpr) := do
  sign "<"
  listUntil ">" g.type

/-! ## Members of object types -/

/-- A key in brackets that stands for many properties. -/
def indexSignature (g : Grammar) : Parser Unit := do
  skipOptional (oneOf ["-", "+"])
  skipOptional (keyword "readonly")
  sign "["
  discard word
  (do sign ":"; discard g.type)
    <|> (do keyword "in"; discard g.type; skipOptional (keyword "as" *> g.type))
  sign "]"
  skipOptional (oneOf ["-?", "+?", "?"])
  skipOptional (ascription g)

/-- A property; `notes` are the comments in front of it. -/
def propertySignature (g : Grammar) (notes : List String) : Parser (Option Property) := do
  modifiers
  let name ← propertyName g
  let mark ← optional (sign "?")
  (callSignature g *> return none) <|> do
    let type ← optional (ascription g)
    return some ⟨unquote name, mark.isSome, type, notes.any marksIgnored⟩

def member (g : Grammar) (notes : List String) : Parser (Option Property) :=
  (callSignature g *> return none)
    <|> (do keyword "new"; callSignature g; return none)
    <|> (do indexSignature g; return none)
    <|> (do
      keywordOf ["get", "set"]
      nameFollows
      discard (propertyName g)
      callSignature g
      return none)
    <|> propertySignature g notes

/-- Separators between members, with all comments between the members. -/
def memberGap : Parser (List String) := do
  let first := (← get).comments
  let more ← many do
    oneOf [";", ","]
    return (← get).comments
  return first ++ more.flatten

def objectMembers (g : Grammar) : Parser (List Property) := do
  sign "\x7b"
  let members ← many do
    let notes ← memberGap
    guard (!(← looksAt "\x7d"))
    member g notes
  discard memberGap
  sign "\x7d"
  return members.filterMap id

/-! ## Types -/

def predefinedNames : List String :=
  ["any", "number", "boolean", "string", "symbol", "void", "unknown", "never", "object"]

def literalNames : List String := ["true", "false", "undefined"]

def functionType (g : Grammar) : Parser Unit := do
  skipOptional (typeParameters g)
  discard (parameters g)
  sign "=>"
  returned g

def constructorType (g : Grammar) : Parser Unit := do
  skipOptional (keyword "abstract")
  keyword "new"
  functionType g

def tupleElement (g : Grammar) : Parser Unit := do
  skipOptional (sign "...")
  (do discard word; skipOptional (sign "?"); sign ":"; discard g.type)
    <|> (do discard g.type; skipOptional (sign "?"))

def typeQuery (g : Grammar) : Parser Unit := do
  keyword "typeof"
  (do keyword "import"; sign "("; discard g.type; sign ")") <|> discard word
  skipMany (oneOf ["?.", "."] *> ((do guard (← looksAt "#"); takeInside 1; discard word) <|> discard word))
  skipOptional (typeArguments g)

def namedType (g : Grammar) : Parser TypeExpr := do
  let start ← get
  discard word
  skipMany (sign "." *> word)
  let name ← textSince start
  match ← optional (typeArguments g) with
  | some arguments => return .generic (← textSince start) name arguments
  | none => return .named name

/-- A type that begins with a word, and is more than a name for some words. -/
def wordType (g : Grammar) (start : Cursor) (w : String) : Parser TypeExpr := do
  if predefinedNames.contains w then
    keyword w
    return .predefined w
  else if literalNames.contains w || w = "this" || w = "const" then
    keyword w
    return .other w
  else if w = "null" then
    keyword w
    return .null w
  else if w = "typeof" then
    typeQuery g
    return .other (← textSince start)
  else if w = "import" then
    keyword w
    sign "("
    discard (listUntil ")" g.type)
    skipMany (sign "." *> word)
    skipOptional (typeArguments g)
    return .other (← textSince start)
  else
    (do keyword "unique"; keyword "symbol"; return .predefined (← textSince start)) <|> namedType g

def primaryType (g : Grammar) : Parser TypeExpr := do
  let start ← get
  match ← nextWord with
  | some w => wordType g start w
  | none =>
    (do sign "("; let inner ← g.type; sign ")"; return .parenthesized (← textSince start) inner)
      <|> (do let ps ← objectMembers g; return .object (← textSince start) ps)
      <|> (do sign "["; discard (listUntil "]" (tupleElement g)); return .other (← textSince start))
      <|> (do string; return .stringLiteral (← textSince start))
      <|> (do template (discard g.type); return .other (← textSince start))
      <|> (do skipOptional (oneOf ["-", "+"]); number; return .other (← textSince start))
      <|> (do sign "?"; discard g.type; return .other (← textSince start))
      <|> (do sign "*"; return .other (← textSince start))

/-- Brackets after a type, on the line where it ends. -/
def suffixedType (g : Grammar) : Parser TypeExpr := do
  let start ← get
  let first ← primaryType g
  grow (fun t => do
    sameLine
    sign "["
    (do sign "]"; return .array (← textSince start) t)
      <|> (do discard g.type; sign "]"; return .other (← textSince start))) first

/-- Introduces the name of a part of a matched type; a bound after it must not be the question of
a conditional. -/
def inferredType (g : Grammar) : Parser Unit := do
  keyword "infer"
  discard word
  skipOptional do
    keyword "extends"
    discard (suffixedType g)
    guard (!(← looksAt "?"))

def operandType (g : Grammar) : Parser TypeExpr := do
  let start ← get
  (do functionType g; return .other (← textSince start))
    <|> (do constructorType g; return .other (← textSince start))
    <|> (do keyword "readonly"; discard g.type; return .other (← textSince start))
    <|> (do
      keyword "keyof"
      guard (!(← looksAt "."))
      discard (suffixedType g)
      return .other (← textSince start))
    <|> (do inferredType g; return .other (← textSince start))
    <|> suffixedType g

def ampersand : Parser Unit := signBut "&" ['&', '=']

def bar : Parser Unit := signBut "|" ['|', '=']

def intersectionType (g : Grammar) : Parser TypeExpr := do
  let start ← get
  let leading ← optional ampersand
  let first ← operandType g
  let more ← many (ampersand *> operandType g)
  if leading.isNone && more.isEmpty then return first else return .other (← textSince start)

/-- A bar in front makes a union even of a single type. -/
def unionType (g : Grammar) : Parser TypeExpr := do
  let start ← get
  let leading ← optional bar
  let first ← intersectionType g
  let more ← many (bar *> intersectionType g)
  if leading.isNone && more.isEmpty then return first
  else return .union (← textSince start) ((first :: more).flatMap TypeExpr.operands)

def typeExpr (g : Grammar) : Parser TypeExpr := do
  let start ← get
  let first ← unionType g
  (do
    keyword "extends"
    discard g.type
    sign "?"
    discard g.type
    sign ":"
    discard g.type
    return .other (← textSince start)) <|> return first

end BlockCheck.Source
