import BlockCheck.Source.Expressions

/-!
# Statements

Declarations are noted as they are read, also those inside functions and blocks. Of a statement
that cannot be read, a line is skipped and the reading goes on behind it.
-/

namespace BlockCheck.Source

open BlockCheck.Source.Parser

def semicolon : Parser Unit := skipOptional (sign ";")

/-! ## Declarations -/

def declarator (g : Grammar) : Parser Unit := do
  let start ← get
  g.pattern
  let name ← textSince start
  skipOptional (signBut "!" ['='])
  skipOptional (ascription g)
  let value ← optional (initializer g)
  declare start.place (.variable name value)

def bindings (g : Grammar) : Parser Unit := do
  keywordOf ["var", "let", "const"]
  discard (sepBy (declarator g))

/-- A function with a name; without a body it is only a signature and declares nothing. -/
def functionDeclaration (g : Grammar) : Parser (Option Function) := do
  let start ← get
  skipOptional (keyword "async" *> sameLine)
  keyword "function"
  skipOptional (sign "*")
  let name ← word
  skipOptional (typeParameters g)
  let ps ← parameters g
  skipOptional (returnType g)
  let function : Function := ⟨ps.head?.join⟩
  (do
    block g
    declare start.place (.function name function)
    return some function) <|> do
    semicolon
    return none

def classDeclaration (g : Grammar) : Parser Unit := classExpression g

/-- The name of an extended interface; other forms of type extend nothing that can be found. -/
def baseName : TypeExpr → Option String
  | .named name | .generic _ name _ => some name
  | _ => none

def interfaceDeclaration (g : Grammar) : Parser Unit := do
  let start ← get
  keyword "interface"
  let name ← word
  skipOptional (typeParameters g)
  let bases ← (keyword "extends" *> sepBy (suffixedType g)) <|> return []
  let properties ← inside (objectMembers g)
  declare start.place (.interface ⟨name, bases.filterMap baseName, properties⟩)

def typeAlias (g : Grammar) : Parser Unit := do
  let start ← get
  keyword "type"
  let name ← word
  skipOptional (typeParameters g)
  signBut "=" ['=', '>']
  let value ← g.type
  semicolon
  declare start.place (.typeAlias name value)

def enumeration (g : Grammar) : Parser Unit := do
  skipOptional (keyword "const")
  keyword "enum"
  discard word
  sign "\x7b"
  discard <| listUntil "\x7d" do
    discard (propertyName g)
    skipOptional (initializer g)

def namespaceBlock (g : Grammar) : Parser Unit := do
  keywordOf ["namespace", "module"]
  string <|> (do discard word; skipMany (sign "." *> word))
  block g <|> semicolon

def declaration (g : Grammar) : Parser Unit :=
  enumeration g
    <|> (do bindings g; semicolon)
    <|> discard (functionDeclaration g)
    <|> (do decorators g; classDeclaration g)
    <|> interfaceDeclaration g
    <|> typeAlias g
    <|> namespaceBlock g

def ambient (g : Grammar) : Parser Unit := do
  keyword "declare"
  (keyword "global" *> block g) <|> declaration g

/-! ## Modules -/

def attributes (g : Grammar) : Parser Unit :=
  skipOptional (do keywordOf ["with", "assert"]; sameLine; objectLiteral g)

def importStatement (g : Grammar) : Parser Unit := do
  keyword "import"
  skipMany (discard word <|> oneOf [",", "*"]
    <|> (do sign "\x7b"; discard (listUntil "\x7d" (skipMany (discard word <|> string)))))
  (do signBut "=" ['=', '>']; discard g.expression) <|> string
  attributes g
  semicolon

def exportSpecifier : Parser String := do
  let start ← get
  discard word <|> string
  skipMany (discard word <|> string)
  textSince start

def moduleSource (g : Grammar) : Parser String := do
  keyword "from"
  let start ← get
  string
  let source ← textSince start
  attributes g
  return source

def exportList (g : Grammar) : Parser Unit := do
  skipOptional (keyword "type")
  sign "\x7b"
  let specifiers ← listUntil "\x7d" exportSpecifier
  match ← optional (moduleSource g) with
  | some source => exports (.fromModule specifiers source)
  | none => pure ()
  semicolon

/-- A function declaration is exported as it stands; any other declaration is no value. -/
def exportDefault (g : Grammar) : Parser Unit := do
  keyword "default"
  (do
    let f ← functionDeclaration g
    exports (.default (f.elim .other .function)))
    <|> (do
      declaration g
      exports (.default .other))
    <|> (do
      let v ← g.expression
      exports (.default v)
      semicolon)

def exportStatement (g : Grammar) : Parser Unit := do
  decorators g
  keyword "export"
  exportDefault g
    <|> exportList g
    <|> (do
      skipOptional (keyword "type")
      sign "*"
      skipOptional (keyword "as" *> (discard word <|> string))
      discard (moduleSource g)
      semicolon)
    <|> (do signBut "=" ['=', '>']; discard g.expression; semicolon)
    <|> (do keyword "as"; keyword "namespace"; discard word; semicolon)
    <|> importStatement g
    <|> ambient g
    <|> declaration g

/-! ## Control flow -/

def condition (g : Grammar) : Parser Unit := do
  sign "("
  discard g.expressions
  sign ")"

def ifStatement (g : Grammar) : Parser Unit := do
  keyword "if"
  condition g
  g.statement
  skipOptional (keyword "else" *> g.statement)

def forHead (g : Grammar) : Parser Unit :=
  (do
    skipOptional (keywordOf ["var", "let", "const"])
    g.pattern
    keywordOf ["of", "in"]
    discard g.expressions
    sign ")")
    <|> (do
      skipOptional (bindings g <|> discard g.expressions)
      sign ";"
      skipOptional g.expressions
      sign ";"
      skipOptional g.expressions
      sign ")")

def forStatement (g : Grammar) : Parser Unit := do
  keyword "for"
  skipOptional (keyword "await")
  sign "("
  inside (forHead g)
  g.statement

def whileStatement (g : Grammar) : Parser Unit := do
  keywordOf ["while", "with"]
  condition g
  g.statement

def doStatement (g : Grammar) : Parser Unit := do
  keyword "do"
  g.statement
  keyword "while"
  condition g
  semicolon

def switchCase (g : Grammar) : Parser Unit := do
  (do keyword "case"; discard g.expressions) <|> keyword "default"
  sign ":"
  skipMany do
    guard (!(["case", "default"].contains ((← nextWord).getD "")))
    g.statement

def switchStatement (g : Grammar) : Parser Unit := do
  keyword "switch"
  condition g
  sign "\x7b"
  inside (skipMany (switchCase g))
  sign "\x7d"

def tryStatement (g : Grammar) : Parser Unit := do
  keyword "try"
  block g
  skipOptional do
    keyword "catch"
    skipOptional (do sign "("; g.pattern; skipOptional (ascription g); sign ")")
    block g
  skipOptional (keyword "finally" *> block g)

/-- A jump, with the value or the label that it takes along. -/
def jump (g : Grammar) : Parser Unit := do
  keywordOf ["return", "throw", "break", "continue", "debugger"]
  skipOptional (sameLine *> g.expressions)
  semicolon

def labelled (g : Grammar) : Parser Unit := do
  discard word
  sign ":"
  g.statement

def expressionStatement (g : Grammar) : Parser Unit := do
  discard g.expressions
  semicolon

/-- A statement that begins with a word. -/
def wordStatement (g : Grammar) : Parser Unit :=
  exportStatement g
    <|> ambient g
    <|> declaration g
    <|> importStatement g
    <|> ifStatement g <|> forStatement g <|> whileStatement g <|> doStatement g
    <|> switchStatement g <|> tryStatement g <|> jump g
    <|> labelled g

/-- Past a statement that cannot be read: up to the end of the line or of the statement, but not
out of the block. -/
def skipLine : Parser Unit := do
  guard (!(← looksAt "\x7d"))
  let rest := (← get).rest
  guard (!rest.isEmpty)
  let n := (rest.takeWhile (fun c => c != '\n' && c != ';' && c != '\x7b' && c != '\x7d')).length
  take (if (rest.drop n).head? = some '\x7d' then max n 1 else n + 1)

def statementWith (g : Grammar) : Parser Unit :=
  sign ";"
    <|> (do guard ((← nextWord).isSome || (← looksAt "@")); wordStatement g)
    <|> block g
    <|> expressionStatement g
    <|> skipLine

end BlockCheck.Source
