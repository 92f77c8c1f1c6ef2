import BlockCheck.Json
import BlockCheck.Record
import BlockCheck.Text.Surrogate

/-!
# Reading JSON

A text is read from left to right; what is left of it tells how far the reading came. A fault is
a cause together with the rest of the text at which it shows. A key that is written again keeps
its place and takes the new value. The literals `NaN`, `Infinity` and `-Infinity` are read too.
-/

namespace BlockCheck.Json

inductive Cause where
  | valueExpected
  | extraData
  | keyExpected
  | colonExpected
  | commaExpected
  | unterminatedString
  | controlCharacter
  | badEscape
  | badUnicodeEscape
  | byteOrderMark
  | tooManyDigits (count : Nat)
deriving DecidableEq, Repr

structure Fault where
  cause : Cause
  rest : List Char
deriving DecidableEq, Repr

/-- An integer of more digits is refused. -/
def digitLimit : Nat := 4300

def isBlank (c : Char) : Bool := c = ' ' || c = '\t' || c = '\n' || c = '\r'

def skipBlank (s : List Char) : List Char := s.dropWhile isBlank

/-! ## Strings -/

def hexDigit? (c : Char) : Option Nat :=
  if '0' ≤ c ∧ c ≤ '9' then some (c.toNat - '0'.toNat)
  else if 'a' ≤ c ∧ c ≤ 'f' then some (c.toNat - 'a'.toNat + 10)
  else if 'A' ≤ c ∧ c ≤ 'F' then some (c.toNat - 'A'.toNat + 10)
  else none

def unit? (a b c d : Char) : Option Nat := do
  return (((← hexDigit? a) * 16 + (← hexDigit? b)) * 16 + (← hexDigit? c)) * 16 + (← hexDigit? d)

/-- What a code unit stands for on its own. -/
def charsOfUnit (u : Nat) : List Char :=
  if Text.Surrogate.isHalf u then Text.Surrogate.ofHalf u else [Char.ofNat u]

def charOfPair (high low : Nat) : Char :=
  Char.ofNat (0x10000 + (high - 0xD800) * 0x400 + (low - 0xDC00))

/-- The character that a backslash and this letter write. -/
def escaped? : Char → Option Char
  | '"' => some '"'
  | '\\' => some '\\'
  | '/' => some '/'
  | 'b' => some '\x08'
  | 'f' => some '\x0c'
  | 'n' => some '\n'
  | 'r' => some '\r'
  | 't' => some '\t'
  | _ => none

/-- The characters of a string up to its closing quote. `start` is the text from the opening
quote on. -/
def stringTail (start : List Char) : List Char → Except Fault (List Char × List Char)
  | [] => .error ⟨.unterminatedString, start⟩
  | '"' :: rest => .ok ([], rest)
  | ['\\'] => .error ⟨.unterminatedString, start⟩
  | '\\' :: 'u' :: a :: b :: c :: d :: rest =>
    let fault : Fault := ⟨.badUnicodeEscape, 'u' :: a :: b :: c :: d :: rest⟩
    if rest.isEmpty then .error fault
    else match unit? a b c d with
      | none => .error fault
      | some high =>
        match rest with
        | '\\' :: 'u' :: e :: f :: g :: h :: after =>
          match Text.Surrogate.isHigh high && !after.isEmpty, unit? e f g h with
          | true, some low =>
            if Text.Surrogate.isLow low then do
              let (cs, rest) ← stringTail start after
              return (charOfPair high low :: cs, rest)
            else do
              let (cs, rest) ← stringTail start ('\\' :: 'u' :: e :: f :: g :: h :: after)
              return (charsOfUnit high ++ cs, rest)
          | _, _ => do
            let (cs, rest) ← stringTail start ('\\' :: 'u' :: e :: f :: g :: h :: after)
            return (charsOfUnit high ++ cs, rest)
        | rest => do
          let (cs, rest) ← stringTail start rest
          return (charsOfUnit high ++ cs, rest)
  | '\\' :: 'u' :: rest => .error ⟨.badUnicodeEscape, 'u' :: rest⟩
  | '\\' :: c :: rest =>
    match escaped? c with
    | none => .error ⟨.badEscape, '\\' :: c :: rest⟩
    | some e => do
      let (cs, rest) ← stringTail start rest
      return (e :: cs, rest)
  | c :: rest =>
    if c.toNat < 0x20 then .error ⟨.controlCharacter, c :: rest⟩
    else do
      let (cs, rest) ← stringTail start rest
      return (c :: cs, rest)

/-! ## Numbers -/

def natOfDigits (ds : List Char) : Nat := ds.foldl (fun n c => n * 10 + (c.toNat - '0'.toNat)) 0

/-- The digits before the point: one zero, or digits that do not start with zero. -/
def wholePart : List Char → Option (List Char × List Char)
  | '0' :: rest => some (['0'], rest)
  | c :: rest =>
    if c.isDigit then some ((c :: rest).takeWhile Char.isDigit, (c :: rest).dropWhile Char.isDigit)
    else none
  | [] => none

/-- A point and the digits after it; nothing if no digit follows. -/
def fractionPart : List Char → List Char × List Char
  | '.' :: c :: rest =>
    if c.isDigit then ((c :: rest).takeWhile Char.isDigit, (c :: rest).dropWhile Char.isDigit)
    else ([], '.' :: c :: rest)
  | s => ([], s)

def exponentSign : List Char → Bool × List Char
  | '-' :: rest => (true, rest)
  | '+' :: rest => (false, rest)
  | s => (false, s)

/-- An exponent; nothing if it has no digits. -/
def exponentPart : List Char → Option Int × List Char
  | c :: rest =>
    if c = 'e' ∨ c = 'E' then
      let (negative, tail) := exponentSign rest
      let ds := tail.takeWhile Char.isDigit
      if ds.isEmpty then (none, c :: rest)
      else
        let e : Int := natOfDigits ds
        (some (if negative then -e else e), tail.dropWhile Char.isDigit)
    else (none, c :: rest)
  | [] => (none, [])

/-- A number without its sign; `start` is the text from the sign on. -/
def unsignedNumber (negative : Bool) (start s : List Char) : Except Fault (Json × List Char) :=
  match wholePart s with
  | none => .error ⟨.valueExpected, start⟩
  | some (whole, afterWhole) =>
    let (fraction, afterFraction) := fractionPart afterWhole
    let (exponent, rest) := exponentPart afterFraction
    if fraction.isEmpty ∧ exponent = none then
      if digitLimit < whole.length then .error ⟨.tooManyDigits whole.length, start⟩
      else
        let n : Int := natOfDigits whole
        .ok (.int (if negative then -n else n), rest)
    else
      let place : Int := exponent.getD 0 - fraction.length
      .ok (.real (.ofDecimal negative (natOfDigits (whole ++ fraction)) place), rest)

def number (s : List Char) : Except Fault (Json × List Char) :=
  match s with
  | '-' :: rest => unsignedNumber true s rest
  | _ => unsignedNumber false s s

/-! ## Values -/

def literals : List (List Char × Json) :=
  [("null".toList, .null), ("true".toList, .bool true), ("false".toList, .bool false),
    ("NaN".toList, .real .notANumber), ("Infinity".toList, .real (.infinite false)),
    ("-Infinity".toList, .real (.infinite true))]

def literal? (s : List Char) : Option (Json × List Char) :=
  (literals.find? (fun l => l.1.isPrefixOf s)).map (fun l => (l.2, s.drop l.1.length))

mutual

def value : Nat → List Char → Except Fault (Json × List Char)
  | 0, s => .error ⟨.valueExpected, s⟩
  | fuel + 1, s =>
    match s with
    | '"' :: rest => do
      let (cs, rest) ← stringTail s rest
      return (.string (String.ofList cs), rest)
    | '[' :: rest =>
      match skipBlank rest with
      | ']' :: rest => .ok (.array [], rest)
      | rest => do
        let (items, rest) ← items fuel rest
        return (.array items, rest)
    | '{' :: rest =>
      match skipBlank rest with
      | '}' :: rest => .ok (.object [], rest)
      | rest => do
        let (members, rest) ← members fuel [] rest
        return (.object members, rest)
    | s =>
      match literal? s with
      | some read => .ok read
      | none => number s

/-- The items of a list that has some, up to its closing bracket. -/
def items : Nat → List Char → Except Fault (List Json × List Char)
  | 0, s => .error ⟨.valueExpected, s⟩
  | fuel + 1, s => do
    let (item, rest) ← value fuel s
    match skipBlank rest with
    | ']' :: rest => return ([item], rest)
    | ',' :: rest =>
      let (more, rest) ← items fuel (skipBlank rest)
      return (item :: more, rest)
    | rest => .error ⟨.commaExpected, rest⟩

/-- The members of an object that has some, up to its closing brace; `read` are those already
read. -/
def members : Nat → List (String × Json) → List Char → Except Fault (List (String × Json) × List Char)
  | 0, _, s => .error ⟨.valueExpected, s⟩
  | fuel + 1, read, s =>
    match s with
    | '"' :: rest => do
      let (key, rest) ← stringTail s rest
      match skipBlank rest with
      | ':' :: rest =>
        let (item, rest) ← value fuel (skipBlank rest)
        let read := Record.insert (String.ofList key) item read
        match skipBlank rest with
        | '}' :: rest => return (read, rest)
        | ',' :: rest => members fuel read (skipBlank rest)
        | rest => .error ⟨.commaExpected, rest⟩
      | rest => .error ⟨.colonExpected, rest⟩
    | s => .error ⟨.keyExpected, s⟩

end

/-- A whole text. Reading a value and going on to the next one take at most two steps of fuel
a character. -/
def document (s : List Char) : Except Fault Json :=
  match s with
  | '\ufeff' :: _ => .error ⟨.byteOrderMark, s⟩
  | s => do
    let (read, rest) ← value (2 * s.length + 2) (skipBlank s)
    match skipBlank rest with
    | [] => return read
    | rest => .error ⟨.extraData, rest⟩

/-! ## Wording -/

def Cause.text : Cause → String
  | .valueExpected => "Expecting value"
  | .extraData => "Extra data"
  | .keyExpected => "Expecting property name enclosed in double quotes"
  | .colonExpected => "Expecting ':' delimiter"
  | .commaExpected => "Expecting ',' delimiter"
  | .unterminatedString => "Unterminated string starting at"
  | .controlCharacter => "Invalid control character at"
  | .badEscape => "Invalid \\escape"
  | .badUnicodeEscape => "Invalid \\uXXXX escape"
  | .byteOrderMark => "Unexpected UTF-8 BOM (decode using utf-8-sig)"
  | .tooManyDigits count =>
    "Exceeds the limit (" ++ toString digitLimit ++ " digits) for integer string conversion: value has "
      ++ toString count ++ " digits; use sys.set_int_max_str_digits() to increase the limit"

/-- A place in a text: after `before`, with line and column counted from one. -/
def placeText (before : List Char) : String :=
  let line := before.count '\n' + 1
  let column := (before.reverse.takeWhile (· ≠ '\n')).length + 1
  "line " ++ toString line ++ " column " ++ toString column ++ " (char " ++ toString before.length ++ ")"

/-- The fault of reading `source`. Too long a number has no place. -/
def Fault.message (source : List Char) (fault : Fault) : String :=
  match fault.cause with
  | .tooManyDigits _ => fault.cause.text
  | _ => fault.cause.text ++ ": " ++ placeText (source.take (source.length - fault.rest.length))

/-- The value that a text writes, or why it writes none. -/
def parse (source : String) : Except String Json :=
  (document source.toList).mapError (Fault.message source.toList)

end BlockCheck.Json
