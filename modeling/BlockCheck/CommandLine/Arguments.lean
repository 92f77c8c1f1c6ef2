import BlockCheck.CommandLine.Word
import BlockCheck.Path
import BlockCheck.Text.Quoted

/-!
# Reading the command line

The words are told apart first, then taken one after the other. A request for help or for the
version ends the reading, as does the first mistake.
-/

namespace BlockCheck.CommandLine

structure Request where
  root : String := "."
  blocks : Option String := none
  unused : Bool := false
  quiet : Bool := false
  verbose : Bool := false
  /-- The one component to check. -/
  file : Option String := none
  report : Option String := none

inductive Misuse where
  | ambiguous (word : String) (names : List String)
  | ignoredValue (s : Switch) (value : String)
  | missingValue (s : Switch)
  | unknownCommand (word : String)
  | unrecognized (words : List String)

namespace Misuse

def message : Misuse → String
  | .ambiguous word names =>
    "ambiguous option: " ++ word ++ " could match " ++ Text.join ", " names
  | .ignoredValue s value =>
    "argument " ++ s.title ++ ": ignored explicit argument " ++ Text.quoted value
  | .missingValue s => "argument " ++ s.title ++ ": expected one argument"
  | .unknownCommand word =>
    "argument command: invalid choice: " ++ Text.quoted word ++ " (choose from "
      ++ Text.join ", " (Command.all.map (Text.quoted ·.name)) ++ ")"
  | .unrecognized words => "unrecognized arguments: " ++ Text.join " " words

end Misuse

inductive Invocation where
  | run (c : Command) (request : Request)
  | help (page : Page)
  | version
  | noCommand
  | misuse (page : Page) (m : Misuse)

/-- A word with what it is. -/
abbrev Marked := String × Word

/-- Tells the words apart. Behind the separator all are plain. -/
def mark (page : Page) : List String → Except Misuse (List Marked)
  | [] => .ok []
  | word :: rest =>
    match Word.read page word with
    | .error names => .error (.ambiguous word names)
    | .ok .separator => .ok ((word, .separator) :: rest.map (·, .plain))
    | .ok w => do return (word, w) :: (← mark page rest)

/-! ## Flags -/

/-- The value that letters behind a short name leave over. Each letter could be a further short
name; one that is not ends the search. -/
def excess? : List Char → Option String
  | [] => none
  | '-' :: rest => some (String.ofList ('-' :: rest))
  | ['h'] => none
  | 'h' :: '=' :: rest => some (String.ofList rest)
  | 'h' :: c :: rest => excess? (c :: rest)
  | _ => none

def flagFault? (f : Flag) : Attached → Option Misuse
  | .none => none
  | .equals value => some (.ignoredValue (.flag f) value)
  | .direct value => (excess? value.toList).map (.ignoredValue (.flag f))

namespace Request

/-- Sets a flag; one that ends the reading gives what the reading ends in. -/
def setFlag (page : Page) (request : Request) : Flag → Except Invocation Request
  | .help => .error (.help page)
  | .version => .error .version
  | .unused => .ok { request with unused := true }
  | .quiet => .ok { request with quiet := true }
  | .verbose => .ok { request with verbose := true }

def set (request : Request) (s : Setting) (value : String) : Request :=
  match s with
  | .projectRoot => { request with root := Path.tidy value }
  | .blocks => { request with blocks := some (Path.tidy value) }
  | .report => { request with report := some (Path.tidy value) }

end Request

def takeFlag (page : Page) (request : Request) (f : Flag) (value : Attached) :
    Except Invocation Request :=
  match flagFault? f value with
  | some m => .error (.misuse page m)
  | none => request.setFlag page f

/-! ## Words behind a command -/

/-- How far the words behind a command have been read. -/
structure Reading where
  request : Request := {}
  /-- The component has been named, or cannot be any more. -/
  settled : Bool
  /-- Words that fit nowhere. -/
  left : List String := []

namespace Reading

def start (c : Command) : Reading := { settled := c != .sections }

def leave (r : Reading) (word : String) : Reading := { r with left := r.left ++ [word] }

def setFile (r : Reading) (word : String) : Reading :=
  { r with request := { r.request with file := some (Path.tidy word) }, settled := true }

def settle (r : Reading) : Reading := { r with settled := true }

def setTo (r : Reading) (s : Setting) (value : String) : Reading :=
  { r with request := r.request.set s value }

end Reading

/-- A setting takes its value from its own word, else from the next word if that is plain. The
first plain word names the component. -/
def readRest (page : Page) : List Marked → Reading → Except Invocation Reading
  | [], r => .ok r
  | (word, .unknown) :: rest, r => readRest page rest (r.leave word)
  | (_, .switch (.flag f) value) :: rest, r => do
    readRest page rest { r with request := ← takeFlag page r.request f value }
  | (_, .switch (.setting s) (.equals value)) :: rest, r => readRest page rest (r.setTo s value)
  | (_, .switch (.setting s) (.direct value)) :: rest, r => readRest page rest (r.setTo s value)
  | (_, .switch (.setting s) .none) :: (value, .plain) :: rest, r =>
    readRest page rest (r.setTo s value)
  | (_, .switch (.setting s) .none) :: rest, r =>
    match s.bareValue? with
    | some value => readRest page rest (r.setTo s value)
    | none => .error (.misuse page (.missingValue (.setting s)))
  | (word, .plain) :: (dashes, .separator) :: rest, r =>
    if r.settled then readRest page ((dashes, .separator) :: rest) (r.leave word)
    else readRest page rest (r.setFile word)
  | (word, .plain) :: rest, r =>
    if r.settled then readRest page rest (r.leave word) else readRest page rest (r.setFile word)
  | (dashes, .separator) :: (word, .plain) :: rest, r =>
    if r.settled then readRest page ((word, .plain) :: rest) (r.leave dashes)
    else readRest page rest (r.setFile word)
  | (dashes, .separator) :: rest, r =>
    readRest page rest (if r.settled then r.leave dashes else r.settle)
termination_by words => words.length

/-! ## The whole line -/

/-- Without words that fit nowhere the command can be run. -/
def finish (c : Command) (before : List String) (r : Reading) : Invocation :=
  match before ++ r.left with
  | [] => .run c r.request
  | left => .misuse .program (.unrecognized left)

/-- Reads the words behind a command; `before` are words before it that fit nowhere. -/
def readCommand (c : Command) (before words : List String) : Invocation :=
  let page := Page.command c
  match mark page words with
  | .error m => .misuse page m
  | .ok words =>
    match readRest page words (.start c) with
    | .error invocation => invocation
    | .ok r => finish c before r

def readProgram : List Marked → List String → Invocation
  | [], [] => .noCommand
  | [], left => .misuse .program (.unrecognized left)
  | (word, .plain) :: rest, left =>
    match Command.ofName? word with
    | some c => readCommand c left (rest.map Prod.fst)
    | none => .misuse .program (.unknownCommand word)
  | [(word, .separator)], left => .misuse .program (.unrecognized (left ++ [word]))
  | (word, .separator) :: _ :: _, _ => .misuse .program (.unknownCommand word)
  | (_, .switch (.flag f) value) :: rest, left =>
    match takeFlag .program {} f value with
    | .error invocation => invocation
    | .ok _ => readProgram rest left
  | (word, _) :: rest, left => readProgram rest (left ++ [word])

def read (words : List String) : Invocation :=
  match mark .program words with
  | .error m => .misuse .program m
  | .ok words => readProgram words []

end BlockCheck.CommandLine
