import BlockCheck.Source.Cursor

/-!
# Tokens with an inside of their own

Strings, templates, regular expressions and numbers. Each scan gives the number of characters up
to and with the end of the token, after its first character.
-/

namespace BlockCheck.Source

/-- A string on one line; a backslash takes the next character with it. -/
def stringSize (quote : Char) : List Char → Option Nat
  | [] => none
  | '\\' :: _ :: rest => (stringSize quote rest).map (· + 2)
  | c :: rest =>
    if c = quote then some 1
    else if c = '\n' then none
    else (stringSize quote rest).map (· + 1)

/-- Text of a template up to its end or up to an inset expression; says whether it is the end. -/
def templateSize : List Char → Option (Nat × Bool)
  | [] => none
  | '\\' :: _ :: rest => (templateSize rest).map (fun r => (r.1 + 2, r.2))
  | '$' :: '\x7b' :: _ => some (2, false)
  | c :: rest =>
    if c = '`' then some (1, true) else (templateSize rest).map (fun r => (r.1 + 1, r.2))

/-- A regular expression; a slash between brackets does not end it. -/
def regexSize (inBrackets : Bool) : List Char → Option Nat
  | [] => none
  | '\\' :: _ :: rest => (regexSize inBrackets rest).map (· + 2)
  | c :: rest =>
    if c = '\n' then none
    else if c = '/' && !inBrackets then some 1
    else (regexSize (if c = '[' then true else if c = ']' then false else inBrackets) rest).map (· + 1)

/-- The value of an attribute in markup, which knows no backslash. -/
def attributeSize (quote : Char) : List Char → Option Nat
  | [] => none
  | c :: rest => if c = quote then some 1 else (attributeSize quote rest).map (· + 1)

namespace Parser

/-- A token whose first character is `open` and whose size behind it is told by `size`. -/
def enclosed (opening : Char) (size : List Char → Option Nat) : Parser Unit := do
  match (← get).rest with
  | c :: rest =>
    guard (c = opening)
    match size rest with
    | some n => take (n + 1)
    | none => failure
  | [] => failure

def string : Parser Unit := enclosed '"' (stringSize '"') <|> enclosed '\'' (stringSize '\'')

def attributeString : Parser Unit :=
  enclosed '"' (attributeSize '"') <|> enclosed '\'' (attributeSize '\'')

def regex : Parser Unit := do
  enclosed '/' (regexSize false)
  let cursor ← get
  -- Flags follow the closing slash at once.
  if cursor.place = cursor.last then take (cursor.rest.takeWhile isNamePart).length

/-- Digits, letters and points; what a number looks like inside does not matter here. -/
def number : Parser Unit := do
  match (← get).rest with
  | c :: rest =>
    guard (c.isDigit || (c = '.' && rest.head?.any Char.isDigit))
    take (1 + (rest.takeWhile (fun c => isNamePart c || c = '.')).length)
  | [] => failure

def template (inset : Parser Unit) : Parser Unit := do
  guard (← looksAt "`")
  takeInside 1
  skipMany do
    match templateSize (← get).rest with
    | some (n, false) =>
      take n
      inset
      guard (← looksAt "\x7d")
      takeInside 1
    | _ => failure
  match templateSize (← get).rest with
  | some (n, true) => take n
  | _ => failure

end Parser

end BlockCheck.Source
