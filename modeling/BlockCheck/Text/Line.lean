import BlockCheck.Text.Affix
import BlockCheck.Text.Blank

/-!
# Lines of a text

Two ways to tell on which line something stands. The first counts line feeds only; the second
splits at every break of a line and takes a carriage return with the line feed after it as one.
Lines are counted from one.
-/

namespace BlockCheck.Text

/-! ## Pairs of a key and a value -/

def quotedText (s : String) : List Char := '"' :: s.toList ++ ['"']

/-- What follows `start`, if the text begins with it. -/
def dropPrefix? (start s : List Char) : Option (List Char) :=
  if start.isPrefixOf s then some (s.drop start.length) else none

/-- What follows a key, a colon and a value at the beginning of the text. White space may stand
around the colon. -/
def afterPair? (key value : String) (s : List Char) : Option (List Char) := do
  let s ← dropPrefix? (quotedText key) s
  let s ← dropPrefix? [':'] (s.dropWhile isBlank)
  dropPrefix? (quotedText value) (s.dropWhile isBlank)

/-- The lines on which the pair is written. The next `skip` characters belong to a pair already
found; `line` is the current line. -/
def pairLinesFrom (key value : String) : Nat → Nat → List Char → List Nat
  | _, _, [] => []
  | skip + 1, line, c :: rest => pairLinesFrom key value skip (if c = '\n' then line + 1 else line) rest
  | 0, line, c :: rest =>
    let next := if c = '\n' then line + 1 else line
    match afterPair? key value (c :: rest) with
    | some after => line :: pairLinesFrom key value (rest.length - after.length) next rest
    | none => pairLinesFrom key value 0 next rest

def pairLines (key value content : String) : List Nat := pairLinesFrom key value 0 1 content.toList

/-- The line of the pair that `n` others come before. -/
def pairLine? (content key value : String) (n : Nat) : Option Nat := (pairLines key value content)[n]?

/-! ## Lines -/

/-- The lines without their breaks; a break at the very end starts no line. -/
def splitLines : List Char → List (List Char)
  | [] => []
  | '\r' :: '\n' :: rest => [] :: splitLines rest
  | c :: rest =>
    if isLineBreak c then [] :: splitLines rest
    else match splitLines rest with
      | [] => [[c]]
      | line :: lines => (c :: line) :: lines

def lineOf? (content needle : String) : Option Nat :=
  ((splitLines content.toList).findIdx? (occursIn needle.toList)).map (· + 1)

end BlockCheck.Text
