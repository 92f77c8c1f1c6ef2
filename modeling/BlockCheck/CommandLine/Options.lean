import BlockCheck.Text.Affix

/-!
# Commands and their options

What may be written on the command line: the two commands, the flags, and the settings, which take
a value.
-/

namespace BlockCheck.CommandLine

inductive Command where
  /-- Checks components against the documents that refer to them. -/
  | sections
  /-- Checks documents against the components and blocks that they refer to. -/
  | blocks
deriving DecidableEq, Repr

/-- The program itself has a page of usage, and each command has its own. -/
inductive Page where
  | program
  | command (c : Command)
deriving DecidableEq, Repr

inductive Flag where
  | help
  | version
  | unused
  | quiet
  | verbose
deriving DecidableEq, Repr

inductive Setting where
  | projectRoot
  | blocks
  | report
deriving DecidableEq, Repr

inductive Switch where
  | flag (f : Flag)
  | setting (s : Setting)
deriving DecidableEq, Repr

namespace Command

def name : Command → String
  | .sections => "sections"
  | .blocks => "blocks"

def all : List Command := [.sections, .blocks]

def ofName? (name : String) : Option Command := all.find? (·.name = name)

end Command

namespace Switch

/-- The ways in which a switch is written. Only the request for help has a short one. -/
def names : Switch → List String
  | .flag .help => ["-h", "--help"]
  | .flag .version => ["--version"]
  | .flag .unused => ["--unused"]
  | .flag .quiet => ["--quiet"]
  | .flag .verbose => ["--verbose"]
  | .setting .projectRoot => ["--project-root"]
  | .setting .blocks => ["--blocks"]
  | .setting .report => ["--report"]

def title (s : Switch) : String := Text.join "/" s.names

end Switch

namespace Setting

/-- The value of a setting that is written without one. -/
def bareValue? : Setting → Option String
  | .report => some "validation-report.json"
  | .projectRoot | .blocks => none

end Setting

namespace Page

def shared : List Switch :=
  [.flag .help, .setting .projectRoot, .setting .blocks, .flag .unused, .flag .quiet, .flag .verbose]

def switches : Page → List Switch
  | .program => [.flag .help, .flag .version]
  | .command .sections => shared ++ [.setting .report]
  | .command .blocks => shared

def spellings (page : Page) : List (String × Switch) :=
  page.switches.flatMap fun s => s.names.map fun n => (n, s)

def title : Page → String
  | .program => "blocklint"
  | .command c => "blocklint " ++ c.name

end Page

end BlockCheck.CommandLine
