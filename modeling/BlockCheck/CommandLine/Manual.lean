import BlockCheck.CommandLine.Options

/-!
# Usage and help

The texts that say how the program is called, laid out for eighty columns.
-/

namespace BlockCheck.CommandLine

def versionText : String := "blocklint 0.1.0\n"

def textOfLines (lines : List String) : String := Text.join "" (lines.map (· ++ "\n"))

namespace Page

def usageLines : Page → List String
  | .program => ["usage: blocklint [-h] [--version] \x7bsections,blocks\x7d ..."]
  | .command .sections =>
    ["usage: blocklint sections [-h] [--project-root PROJECT_ROOT] [--blocks BLOCKS]",
      "                          [--unused] [--quiet] [--verbose] [--report [REPORT]]",
      "                          [file]"]
  | .command .blocks =>
    ["usage: blocklint blocks [-h] [--project-root PROJECT_ROOT] [--blocks BLOCKS]",
      "                        [--unused] [--quiet] [--verbose]"]

def sharedLines : List String :=
  ["options:",
    "  -h, --help            show this help message and exit",
    "  --project-root PROJECT_ROOT",
    "                        Project directory (defaults to the current directory)",
    "  --blocks BLOCKS       Blocks directory (defaults to <project-",
    "                        root>/.deco/blocks)",
    "  --unused              Warn about properties not declared in the component's",
    "                        props type.",
    "  --quiet               Suppress all non-error output.",
    "  --verbose             Log progress to stderr and list clean components."]

def detailLines : Page → List String
  | .program =>
    ["blocklint: validate CMS block documents against component props types",
      "",
      "positional arguments:",
      "  \x7bsections,blocks\x7d  Available commands",
      "    sections         Validate every occurrence of each section, loader and",
      "                     action",
      "    blocks           Validate every reference in every block document,",
      "                     following saved blocks",
      "",
      "options:",
      "  -h, --help         show this help message and exit",
      "  --version          show program's version number and exit"]
  | .command .sections =>
    ["positional arguments:",
      "  file                  Validate only this component source file",
      ""] ++ sharedLines ++
    ["  --report [REPORT]     Write a JSON report (defaults to validation-",
      "                        report.json)"]
  | .command .blocks => sharedLines

def usage (page : Page) : String := textOfLines page.usageLines

def help (page : Page) : String := textOfLines (page.usageLines ++ [""] ++ page.detailLines)

end Page

end BlockCheck.CommandLine
