import BlockCheck.Json
import BlockCheck.Number.Shortest
import BlockCheck.Text.Affix

/-!
# Writing JSON

Every member and every item stands on a line of its own, two spaces further in than what holds
it. Empty lists and objects stay on one line. Only what must be escaped is escaped.
-/

namespace BlockCheck.Json

/-- The last `n` hexadecimal digits. -/
def hexDigits : Nat → Nat → List Char
  | 0, _ => []
  | n + 1, value => hexDigits n (value / 16) ++ [Nat.digitChar (value % 16)]

def escapeChar (c : Char) : List Char :=
  if c = '"' then ['\\', '"']
  else if c = '\\' then ['\\', '\\']
  else if c = '\n' then ['\\', 'n']
  else if c = '\r' then ['\\', 'r']
  else if c = '\t' then ['\\', 't']
  else if c = '\x0c' then ['\\', 'f']
  else if c = '\x08' then ['\\', 'b']
  else if c.toNat < 0x20 then '\\' :: 'u' :: hexDigits 4 c.toNat
  else [c]

def writeString (s : String) : String :=
  String.ofList ('"' :: s.toList.flatMap escapeChar ++ ['"'])

/-- What is no finite number is written by its name, as it may be read. -/
def writeReal : Number.Binary64 → String
  | .notANumber => "NaN"
  | .infinite negative => if negative then "-Infinity" else "Infinity"
  | x => x.text

def newLine (depth : Nat) : String := "\n" ++ String.ofList (List.replicate (2 * depth) ' ')

def enclose (opening closing : String) (depth : Nat) (lines : List String) : String :=
  if lines.isEmpty then opening ++ closing
  else
    opening ++ newLine (depth + 1) ++ Text.join ("," ++ newLine (depth + 1)) lines ++ newLine depth
      ++ closing

mutual

def write (depth : Nat) : Json → String
  | .null => "null"
  | .bool b => if b then "true" else "false"
  | .int n => toString n
  | .real x => writeReal x
  | .string s => writeString s
  | .array items => enclose "[" "]" depth (writeItems (depth + 1) items)
  | .object members => enclose "\x7b" "\x7d" depth (writeMembers (depth + 1) members)

def writeItems (depth : Nat) : List Json → List String
  | [] => []
  | item :: rest => write depth item :: writeItems depth rest

def writeMembers (depth : Nat) : List (String × Json) → List String
  | [] => []
  | member :: rest => writeMember depth member :: writeMembers depth rest

def writeMember (depth : Nat) : String × Json → String
  | (key, value) => writeString key ++ ": " ++ write depth value

end

end BlockCheck.Json
