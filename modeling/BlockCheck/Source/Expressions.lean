import BlockCheck.Source.Types

/-!
# Patterns, expressions and markup

An expression is read for its extent, for what is declared inside it, and for whether it is a
function or a name. How tightly its operators bind plays no part in that.
-/

namespace BlockCheck.Source

open BlockCheck.Source.Parser

/-! ## Patterns -/

def objectPatternEntry (g : Grammar) : Parser Unit :=
  (do sign "..."; g.pattern)
    <|> (do
      discard (propertyName g)
      skipOptional (sign ":" *> g.pattern)
      skipOptional (initializer g))

def arrayPatternEntry (g : Grammar) : Parser Unit :=
  (do
    skipOptional (sign "...")
    g.pattern
    skipOptional (initializer g))
    <|> (do guard (← looksAt ","))

def pattern (g : Grammar) : Parser Unit :=
  (do sign "\x7b"; discard (listUntil "\x7d" (objectPatternEntry g)))
    <|> (do sign "["; discard (listUntil "]" (arrayPatternEntry g)))
    <|> discard word

/-! ## Functions -/

def block (g : Grammar) : Parser Unit := do
  sign "\x7b"
  inside (skipMany g.statement)
  sign "\x7d"

/-- Words that begin no expression. -/
def reservedWords : List String :=
  ["break", "case", "catch", "const", "continue", "debugger", "default", "do", "else", "export",
    "extends", "finally", "for", "if", "in", "instanceof", "return", "switch", "throw", "try",
    "var", "while", "with"]

def functionTail (g : Grammar) : Parser Function := do
  skipOptional (typeParameters g)
  let ps ← parameters g
  skipOptional (returnType g)
  block g
  return ⟨ps.head?.join⟩

def functionExpression (g : Grammar) : Parser Function := do
  skipOptional (keyword "async" *> sameLine)
  keyword "function"
  skipOptional (sign "*")
  skipOptional word
  functionTail g

/-- The parameter list in front of an arrow. A lone name has no annotation. -/
def arrowHead (g : Grammar) (typed : Bool) : Parser Function :=
  (do
    let name ← word
    guard (!reservedWords.contains name)
    sameLine
    sign "=>"
    return ⟨none⟩)
    <|> (do
      skipOptional (typeParameters g)
      let ps ← parameters g
      if typed then skipOptional (returnType g)
      sign "=>"
      return ⟨ps.head?.join⟩)

def arrowFunction (g : Grammar) (typed : Bool) : Parser Function := do
  let head ← (do keyword "async"; sameLine; arrowHead g typed) <|> arrowHead g typed
  if ← looksAt "\x7b" then block g else discard g.expression
  return head

/-! ## Classes and object literals -/

def propertyKey (g : Grammar) : Parser Unit := discard (propertyName g)

/-- Everything of a method behind its name; without a body it is only declared. -/
def methodTail (g : Grammar) : Parser Unit := do
  callSignature g
  skipOptional (block g)

def classMember (g : Grammar) : Parser Unit :=
  sign ";"
    <|> (do keyword "static"; block g)
    <|> (do
      decorators g
      modifiers
      skipOptional (sign "*")
      indexSignature g)
    <|> (do
      decorators g
      modifiers
      skipOptional (keywordOf ["get", "set"] *> nameFollows)
      skipOptional (sign "*")
      propertyKey g
      skipOptional (oneOf ["?", "!"])
      methodTail g <|> do
        skipOptional (ascription g)
        skipOptional (initializer g))

def classBody (g : Grammar) : Parser Unit := do
  sign "\x7b"
  inside (skipMany (classMember g))
  sign "\x7d"

def objectEntry (g : Grammar) : Parser Unit :=
  (do sign "..."; discard g.expression)
    <|> (do
      modifiers
      skipOptional (keywordOf ["get", "set"] *> nameFollows)
      skipOptional (sign "*")
      propertyKey g
      methodTail g
        <|> (do sign ":"; discard g.expression)
        <|> skipOptional (initializer g))

def objectLiteral (g : Grammar) : Parser Unit := do
  sign "\x7b"
  discard (listUntil "\x7d" (objectEntry g))

/-- A list may have gaps. -/
def arrayLiteral (g : Grammar) : Parser Unit := do
  sign "["
  discard <| listUntil "]" ((do skipOptional (sign "..."); discard g.expression) <|> do guard (← looksAt ","))

def callArguments (g : Grammar) : Parser Unit := do
  sign "("
  discard <| listUntil ")" (skipOptional (sign "...") *> g.expression)

/-! ## Markup -/

def markupName : Parser Unit := do
  discard word
  skipMany (oneOf [".", ":", "-"] *> (discard word <|> pure ()))

def markupAttribute (g : Grammar) : Parser Unit :=
  (do sign "\x7b"; sign "..."; discard g.expression; sign "\x7d")
    <|> (do
      markupName
      skipOptional do
        sign "="
        attributeString
          <|> (do sign "\x7b"; discard g.expressions; sign "\x7d")
          <|> (do g.element; modify Cursor.settle))

/-- An expression between tags, which may be only a comment. -/
def insetExpression (g : Grammar) : Parser Unit := do
  guard (← looksAt "\x7b")
  take 1
  skipOptional (sign "...")
  skipOptional g.expressions
  guard (← looksAt "\x7d")
  takeInside 1

/-- What stands between two tags. The cursor is at the very end of the first one. -/
def children (g : Grammar) : Parser Unit := skipMany do
  let words := (← get).rest.takeWhile (fun c => c != '<' && c != '\x7b')
  if words.isEmpty then
    insetExpression g <|> do
      guard (!(← looksAt "</"))
      g.element
  else takeInside words.length

/-- A closing tag; what follows it may be text, so nothing is skipped. -/
def closingTag : Parser Unit := do
  guard (← looksAt "<")
  take 1
  sign "/"
  skipOptional markupName
  guard (← looksAt ">")
  takeInside 1

/-- An element. The cursor ends right behind it. -/
def element (g : Grammar) : Parser Unit := do
  sign "<"
  skipOptional do
    markupName
    skipOptional (typeArguments g)
    skipMany (markupAttribute g)
  (do sign "/"; guard (← looksAt ">"); takeInside 1) <|> do
    guard (← looksAt ">")
    takeInside 1
    children g
    closingTag

/-! ## Expressions -/

def prefixWords : List String := ["typeof", "void", "delete", "await", "new"]

/-- Words that stand for a value without being a name. -/
def valueWords : List String := ["this", "super", "true", "false", "null", "undefined"]

def memberName : Parser Unit :=
  discard word <|> (do guard (← looksAt "#"); takeInside 1; discard word)

/-- Type arguments of a call, of a tagged template, or of a value that nothing is applied to. -/
def appliedTypes (g : Grammar) : Parser Unit := do
  discard (typeArguments g)
  let rest := (← get).rest
  match rest with
  | c :: _ => guard (c = '(' || !(isNamePart c || "\"'\x7b[<+-!/".toList.contains c))
  | [] => pure ()

def suffix (g : Grammar) : Parser Unit :=
  (do
    sign "?."
    callArguments g <|> (do sign "["; discard g.expressions; sign "]")
      <|> memberName <|> template (discard g.expressions))
    <|> (do guard (!(← looksAt "...")); sign "."; memberName)
    <|> callArguments g
    <|> (do sign "["; discard g.expressions; sign "]")
    <|> template (discard g.expressions)
    <|> (do sameLine; oneOf ["++", "--"])
    <|> (do sameLine; signBut "!" ['='])
    <|> appliedTypes g

/-- Parentheses. A comment in front of the expression stands in its place. -/
def parenthesized (g : Grammar) : Parser Value := do
  sign "("
  let commented := !(← get).comments.isEmpty
  let values ← g.expressions
  skipOptional (ascription g)
  sign ")"
  match values with
  | [v] => return if commented then .other else v
  | _ => return .other

def heritage (g : Grammar) : Parser Unit := do
  discard word <|> discard (parenthesized g)
  skipMany (suffix g)
  skipOptional (typeArguments g)

def classExpression (g : Grammar) : Parser Unit := do
  decorators g
  skipOptional (keyword "abstract")
  keyword "class"
  skipOptional do
    let name ← word
    guard (!(["extends", "implements"].contains name))
  skipOptional (typeParameters g)
  skipOptional (keyword "extends" *> heritage g)
  skipOptional (keyword "implements" *> sepBy (suffixedType g))
  classBody g

def wordOperand (g : Grammar) (w : String) : Parser Value :=
  (do return .function (← functionExpression g))
    <|> (do classExpression g; return .other)
    <|> (do
      guard (!reservedWords.contains w)
      take w.length
      if w = "import" then
        callArguments g <|> (do sign "."; discard word)
        return .other
      else return if valueWords.contains w then .other else .name w)

/-- The beginning of an operand that is no arrow function. In a source with markup an angle
bracket opens an element. -/
def primary (g : Grammar) (markup : Bool) : Parser Value := do
  match ← nextWord with
  | some w => wordOperand g w
  | none =>
    parenthesized g
      <|> (do arrayLiteral g; return .other)
      <|> (do objectLiteral g; return .other)
      <|> (do string; return .other)
      <|> (do template (discard g.expressions); return .other)
      <|> (do number; return .other)
      <|> (do regex; return .other)
      <|> (do guard (← looksAt "@"); classExpression g; return .other)
      <|> (do guard (← looksAt "#"); takeInside 1; discard word; return .other)
      <|> (do
        guard markup
        element g
        modify Cursor.settle
        return .other)

/-- Something in front of an operand. In a source without markup an angle bracket opens an
assertion. -/
def prefixPart (g : Grammar) (markup : Bool) : Parser Unit :=
  oneOf ["++", "--"]
    <|> signBut "!" ['='] <|> sign "~" <|> signBut "+" ['='] <|> signBut "-" ['=']
    <|> (do
      keywordOf prefixWords
      guard (!(← get).rest.head?.any ".,;)]=:".toList.contains))
    <|> (do guard (!markup); sign "<"; discard g.type; sign ">")

/-- An expression whose value is asked for from outside; there may be none. -/
def yielded (g : Grammar) : Parser Value := do
  keyword "yield"
  skipOptional (sign "*")
  skipOptional (sameLine *> g.expression)
  return .other

def newTarget : Parser Value := do
  keyword "new"
  sign "."
  keyword "target"
  return .other

/-- What an operand is once something is appended to it. -/
def appended (g : Grammar) (v : Value) : Parser Value := do
  let after ← many (suffix g)
  return if after.isEmpty then v else .other

def operand (g : Grammar) (markup typed : Bool) : Parser Value :=
  (do appended g (.function (← arrowFunction g typed))) <|> do
    let before ← many (prefixPart g markup)
    if before.isEmpty then
      appended g (← yielded g <|> newTarget <|> primary g markup)
    else do
      let v ← (do return .function (← arrowFunction g typed)) <|> yielded g <|> newTarget
        <|> primary g markup
      discard (appended g v)
      return .other

def binarySigns : List String :=
  [">>>=", "===", "!==", "**=", "<<=", ">>=", ">>>", "&&=", "||=", "??=", "==", "!=", "<=", ">=",
    "&&", "||", "??", "**", "<<", ">>", "+=", "-=", "*=", "/=", "%=", "&=", "|=", "^=",
    "+", "-", "*", "/", "%", "&", "|", "^", "<", ">"]

/-- A question that is no optional step to a member. -/
def question : Parser Unit := do
  match (← get).rest with
  | '?' :: '.' :: c :: _ => guard c.isDigit
  | '?' :: '?' :: _ => failure
  | _ => pure ()
  sign "?"

def continuation (g : Grammar) (markup : Bool) : Parser Unit :=
  (do
    question
    (do discard g.expression; sign ":"; discard g.expression)
      <|> (do discard g.branch; sign ":"; discard g.expression))
    <|> (do sameLine; keywordOf ["as", "satisfies"]; discard g.type)
    <|> (do
      oneOf binarySigns <|> signBut "=" ['>'] <|> keywordOf ["in", "instanceof"]
      discard (operand g markup true))

def expressionWith (g : Grammar) (markup typed : Bool) : Parser Value := do
  let first ← operand g markup typed
  let more ← many (continuation g markup)
  return if more.isEmpty then first else .other

end BlockCheck.Source
