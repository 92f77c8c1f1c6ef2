import BlockCheck.Text.Blank
import BlockCheck.Source.Syntax

/-!
# Reading a source file

A cursor stands before a token. Of the gap in front of it, it remembers the comments and whether
the gap holds a line break. Reading either moves it on or fails and leaves it where it was.
-/

namespace BlockCheck.Source

/-! ## Characters -/

/-- White space between tokens; some invisible characters count. -/
def isSpace (c : Char) : Bool :=
  Text.isBlank c || c = '\ufeff' || c = '\u2060' || c = '\u200b'

def punctuation : List Char := ":;`\"'@#.,|^&<=>+-*/%?!~()[]\x7b\x7d".toList

def isNamePart (c : Char) : Bool :=
  c.isAlphanum || (0x1F < c.toNat && !isSpace c && !punctuation.contains c)

def isNameStart (c : Char) : Bool := isNamePart c && !c.isDigit

def endsLine (c : Char) : Bool := c = '\n' || c = '\r' || c = '\u2028' || c = '\u2029'

/-! ## Gaps -/

/-- What stands between two tokens. A line break inside a comment does not count. -/
structure Gap where
  size : Nat
  newline : Bool
  comments : List String
  rest : List Char

namespace Gap

def skip (gap : Gap) (n : Nat) : Gap := { gap with size := gap.size + n }

/-- A comment whose characters are given in reverse. -/
def note (gap : Gap) (reversed : List Char) : Gap :=
  { gap with comments := String.ofList reversed.reverse :: gap.comments }

mutual

def extend (gap : Gap) : List Char → Gap
  | [] => { gap with rest := [] }
  | '/' :: '/' :: rest => extendLine (gap.skip 2) ['/', '/'] rest
  | '/' :: '*' :: rest => extendBlock (gap.skip 2) ['*', '/'] rest
  | c :: rest =>
    if isSpace c then extend { gap.skip 1 with newline := gap.newline || c = '\n' } rest
    else { gap with rest := c :: rest }

def extendLine (gap : Gap) (comment : List Char) : List Char → Gap
  | [] => { gap.note comment with rest := [] }
  | c :: rest =>
    if endsLine c then
      extend { (gap.note comment).skip 1 with newline := gap.newline || c = '\n' } rest
    else extendLine (gap.skip 1) (c :: comment) rest

def extendBlock (gap : Gap) (comment : List Char) : List Char → Gap
  | [] => { gap.note comment with rest := [] }
  | '*' :: '/' :: rest => extend ((gap.note ('/' :: '*' :: comment)).skip 2) rest
  | c :: rest => extendBlock (gap.skip 1) (c :: comment) rest

end

def read (s : List Char) : Gap := extend ⟨0, false, [], []⟩ s

end Gap

/-! ## Cursors -/

structure Cursor where
  size : Nat
  rest : List Char
  /-- The number of characters before `rest`. -/
  place : Nat
  /-- Where the last token ended. -/
  last : Nat
  newline : Bool
  comments : List String
  /-- The number of enclosing blocks. -/
  nesting : Nat
  /-- What was declared so far, in any order. -/
  declared : List Declaration
  exported : List Export

namespace Cursor

/-- Past the gap that starts here. -/
def settle (cursor : Cursor) : Cursor :=
  let gap := Gap.read cursor.rest
  { cursor with
    rest := gap.rest
    place := cursor.place + gap.size
    newline := gap.newline
    comments := gap.comments.reverse }

def atStart (source : List Char) : Cursor := settle ⟨source.length, source, 0, 0, false, [], 0, [], []⟩

def remaining (cursor : Cursor) : Nat := cursor.size - cursor.place

/-- `n` characters on, without looking at what follows them. -/
def advance (cursor : Cursor) (n : Nat) : Cursor :=
  { cursor with
    rest := cursor.rest.drop n
    place := cursor.place + n
    last := cursor.place + n
    newline := false
    comments := [] }

end Cursor

abbrev Parser := StateT Cursor Option

namespace Parser

def take (n : Nat) : Parser Unit := modify fun cursor => (cursor.advance n).settle

/-- `n` characters inside a token. -/
def takeInside (n : Nat) : Parser Unit := modify fun cursor => cursor.advance n

def looksAt (sign : String) : Parser Bool := return sign.toList.isPrefixOf (← get).rest

def sign (sign : String) : Parser Unit := do
  guard (← looksAt sign)
  take sign.length

/-- A sign that is no beginning of a longer one: none of `others` follows it. -/
def signBut (sign : String) (others : List Char) : Parser Unit := do
  guard (← looksAt sign)
  guard (!((← get).rest.drop sign.length).head?.any others.contains)
  take sign.length

def oneOf (signs : List String) : Parser Unit := do
  let rest := (← get).rest
  match signs.find? (fun s => s.toList.isPrefixOf rest) with
  | some s => take s.length
  | none => failure

def sameLine : Parser Unit := do guard (!(← get).newline)

def nextWord : Parser (Option String) := do
  match (← get).rest with
  | c :: rest =>
    return if isNameStart c then some (String.ofList (c :: rest.takeWhile isNamePart)) else none
  | [] => return none

def word : Parser String := do
  match ← nextWord with
  | some w => take w.length; return w
  | none => failure

def keyword (w : String) : Parser Unit := do
  guard ((← nextWord) = some w)
  take w.length

def keywordOf (ws : List String) : Parser Unit := do
  match ← nextWord with
  | some w => guard (ws.contains w); take w.length
  | none => failure

/-- The text from `start` up to the end of the last token. -/
def textSince (start : Cursor) : Parser String := do
  return String.ofList (start.rest.take ((← get).last - start.place))

def manyWithin : Nat → Parser α → Parser (List α)
  | 0, _ => return []
  | n + 1, p => (do
      let a ← p
      let more ← manyWithin n p
      return a :: more) <|> return []

/-- As often as possible. No more tokens follow than characters. -/
def many (p : Parser α) : Parser (List α) := do manyWithin (← get).remaining p

def skipMany (p : Parser α) : Parser Unit := discard (many p)

def growWithin : Nat → (α → Parser α) → α → Parser α
  | 0, _, a => return a
  | n + 1, step, a => (do growWithin n step (← step a)) <|> return a

def grow (step : α → Parser α) (a : α) : Parser α := do growWithin (← get).remaining step a

def skipOptional (p : Parser α) : Parser Unit := discard (optional p)

/-- Items with commas between them, up to the closing sign. -/
def listUntil (close : String) (item : Parser α) : Parser (List α) := do
  let items ← many do
    guard (!(← looksAt close))
    let a ← item
    if ← looksAt "," then sign "," else guard (← looksAt close)
    return a
  sign close
  return items

def sepBy (item : Parser α) : Parser (List α) := do
  let first ← item
  let more ← many (sign "," *> item)
  return first :: more

def inside (p : Parser α) : Parser α := do
  modify fun cursor => { cursor with nesting := cursor.nesting + 1 }
  let a ← p
  modify fun cursor => { cursor with nesting := cursor.nesting - 1 }
  return a

def declare (place : Nat) (body : DeclarationBody) : Parser Unit :=
  modify fun cursor =>
    { cursor with declared := ⟨place, cursor.nesting ≠ 0, body⟩ :: cursor.declared }

/-- Only the exports of the module itself count. -/
def exports (exported : Export) : Parser Unit :=
  modify fun cursor =>
    if cursor.nesting = 0 then { cursor with exported := exported :: cursor.exported } else cursor

end Parser

end BlockCheck.Source
