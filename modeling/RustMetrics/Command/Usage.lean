import RustMetrics.Command.Event

/-! The levels of the command line: the program itself, and its three commands. -/

namespace RustMetrics.Command

inductive Mode where
  | tree
  | graph
  deriving DecidableEq, Repr

def Mode.name : Mode → String
  | tree => "tree"
  | graph => "graph"

/-- One level: what it is called, how it is used and what it takes. `usage` is the
first part of `help`. -/
structure Level where
  program : String
  usage : String
  details : String
  switches : List Switch
  operand : Operand

namespace Level

def help (l : Level) : String := l.usage ++ l.details

/-- The lines after which a run is given up. -/
def complaint (l : Level) (message : String) : String :=
  l.usage ++ l.program ++ ": error: " ++ message ++ "\n"

/-- What a command line says at a level. -/
def events (l : Level) (args : List String) : List Event :=
  match tokens l.switches args with
  | .error message => [.fault message]
  | .ok ts => Command.events l.switches l.operand ts

end Level

def helpSwitch : Switch := ⟨.help, ["-h", "--help"], false⟩

def programName : String := "cyclomatic"

def versionText : String := programName ++ " 0.1.0\n"

def topLevel : Level where
  program := programName
  usage := "usage: cyclomatic [-h] [--version] \x7btree,graph,init\x7d ...\n"
  details := "
Find the cyclomatic complexity of Rust source files.

positional arguments:
  \x7btree,graph,init\x7d  Available commands
    tree             Report decision points per function and method
    graph            Report the structural graph metric per file
    init             Create a configuration file

options:
  -h, --help         show this help message and exit
  --version          show program's version number and exit

Examples:
  cyclomatic tree src/main.rs              # Per-function decision points
  cyclomatic graph src/lib.rs              # File-level E - N + 2P
  cyclomatic tree src --format json        # Every .rs file below src/
  cyclomatic tree . --max-complexity 10    # Exit 2 above the threshold
  cyclomatic init                          # Write a default config file
        \n"
  switches := [helpSwitch, ⟨.version, ["--version"], false⟩]
  operand := .command

/-- The further lines of a usage are indented as far as the first switch. -/
def analysisUsage (program : String) : String :=
  let indent := "usage: ".length + program.length + 1
  let margin := "\n" ++ String.ofList (List.replicate indent ' ')
  "usage: " ++ program ++ " [-h] [-c CONFIG_PATH] [-f \x7btext,json\x7d] [-o OUTPUT]" ++ margin
    ++ "[--max-complexity MAX_COMPLEXITY] [-v]" ++ margin ++ "path\n"

def analysisLevel (mode : Mode) : Level where
  program := programName ++ " " ++ mode.name
  usage := analysisUsage (programName ++ " " ++ mode.name)
  details := "
positional arguments:
  path                  Rust file or directory to analyze

options:
  -h, --help            show this help message and exit
  -c CONFIG_PATH, --config CONFIG_PATH
                        Path to YAML/JSON config file
  -f \x7btext,json\x7d, --format \x7btext,json\x7d
                        Output format (overrides config)
  -o OUTPUT, --output OUTPUT
                        Write output to file instead of stdout
  --max-complexity MAX_COMPLEXITY
                        Exit with status 2 when a result exceeds this value
  -v, --verbose         Verbose logging
"
  switches :=
    [helpSwitch, ⟨.settings, ["-c", "--config"], true⟩, ⟨.format, ["-f", "--format"], true⟩,
      ⟨.output, ["-o", "--output"], true⟩, ⟨.limit, ["--max-complexity"], true⟩,
      ⟨.verbose, ["-v", "--verbose"], false⟩]
  operand := .path

def initLevel : Level where
  program := programName ++ " init"
  usage := "usage: cyclomatic init [-h] [-f]\n"
  details := "
options:
  -h, --help   show this help message and exit
  -f, --force  Overwrite existing config file
"
  switches := [helpSwitch, ⟨.force, ["-f", "--force"], false⟩]
  operand := .nothing

end RustMetrics.Command
