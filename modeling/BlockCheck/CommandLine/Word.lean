import BlockCheck.CommandLine.Options
import BlockCheck.Text.Digit

/-!
# Words of the command line

A word names a switch, perhaps with a value, or it stands for itself. A long name may be cut short
as long as it fits one switch only.
-/

namespace BlockCheck.CommandLine

/-- A value written in the same word as the switch. -/
inductive Attached where
  | none
  | equals (value : String)
  /-- Directly behind a short name. -/
  | direct (value : String)
deriving DecidableEq, Repr

inductive Word where
  | plain
  /-- The two dashes after which every word is plain. -/
  | separator
  | switch (s : Switch) (value : Attached)
  /-- Looks like a switch and is none. -/
  | unknown
deriving DecidableEq, Repr

namespace Word

def separatorText : String := "--"

/-- A dash and digits, which a point may stand among or before; a last line feed is passed over. -/
def isNegativeNumber (word : String) : Bool :=
  match word.toList with
  | '-' :: rest =>
    let body := if rest.getLast? = some '\n' then rest.dropLast else rest
    let whole := body.takeWhile Text.isDigit
    match body.drop whole.length with
    | [] => !whole.isEmpty
    | '.' :: fraction => !fraction.isEmpty && fraction.all Text.isDigit
    | _ => false
  | _ => false

def splitValue (word : String) : String × Attached :=
  match word.toList.dropWhile (· ≠ '=') with
  | [] => (word, .none)
  | _ :: value => (String.ofList (word.toList.takeWhile (· ≠ '=')), .equals (String.ofList value))

/-- The switches that a word which is no full name may stand for, with the names that it fits. -/
def guesses (page : Page) (word : String) : List (String × Word) :=
  if Text.startsWith word "--" then
    let (start, value) := splitValue word
    (page.spellings.filter (fun s => Text.startsWith s.1 start)).map
      (fun s => (s.1, .switch s.2 value))
  else
    (page.spellings.filter (fun s => s.1 = String.ofList (word.toList.take 2))).map
      (fun s => (s.1, .switch s.2 (.direct (Text.drop word 2))))

/-- What a word is that starts with a dash; an error holds the names between which it does not
decide. -/
def readDashed (page : Page) (word : String) : Except (List String) Word :=
  match page.spellings.lookup word, page.spellings.lookup (splitValue word).1 with
  | some s, _ => .ok (.switch s .none)
  | none, some s => .ok (.switch s (splitValue word).2)
  | none, none =>
    match guesses page word with
    | [] => .ok (if isNegativeNumber word || word.toList.contains ' ' then .plain else .unknown)
    | [(_, found)] => .ok found
    | found => .error (found.map Prod.fst)

def read (page : Page) (word : String) : Except (List String) Word :=
  if word = separatorText then .ok .separator
  else if word = "-" || !Text.startsWith word "-" then .ok .plain
  else readDashed page word

end Word

end BlockCheck.CommandLine
