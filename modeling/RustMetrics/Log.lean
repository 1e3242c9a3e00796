import RustMetrics.Survey

/-! The log of a survey. It says no more than the survey itself, so it is read off
the survey when that is over. -/

namespace RustMetrics

inductive Severity where
  | debug
  | info
  deriving DecidableEq, Repr

namespace Severity

def name : Severity → String
  | debug => "DEBUG"
  | info => "INFO"

def number : Severity → Nat
  | debug => 10
  | info => 20

end Severity

structure LogRecord where
  severity : Severity
  speaker : String
  message : String
  deriving DecidableEq, Repr

namespace LogRecord

def line (r : LogRecord) : String :=
  r.severity.name ++ " " ++ r.speaker ++ ": " ++ r.message ++ "\n"

def processing (path : String) : LogRecord :=
  ⟨.info, "cyclomatic.parsing.treesitter", "processing path: " ++ path⟩

/-- The number of symbols of a file that has some. -/
def symbolCount (t : SymbolTree) : Nat := if t.children.isEmpty then 0 else t.leaves.length

def ofTree (path : String) (t : SymbolTree) : LogRecord :=
  ⟨.debug, "cyclomatic.analysis.complexity_tree",
    path ++ ": " ++ toString (symbolCount t) ++ " symbols"⟩

def ofGraph (path : String) (g : Graph Fingerprint) : List LogRecord :=
  [⟨.debug, "cyclomatic.analysis.graph_builder", "built " ++ g.summary⟩,
    ⟨.info, "cyclomatic.core.engine", path ++ ": " ++ g.summary⟩]

/-- The records of a file that could be reported on. -/
def ofReport (r : Report Fingerprint) : List LogRecord :=
  processing r.path :: (r.tree.map (ofTree r.path)).toList ++ (r.graph.map (ofGraph r.path)).getD []

end LogRecord

/-- The records of a survey; of a file that failed only that it was begun. -/
def Survey.log (s : Survey) : List LogRecord :=
  s.reports.flatMap LogRecord.ofReport ++
    match s.failure with
    | some (some path, _) => [.processing path]
    | _ => []

/-- The log from a level on. -/
def Survey.logText (s : Survey) (level : Nat) : String :=
  String.join ((s.log.filter fun r => level ≤ r.severity.number).map LogRecord.line)

/-- The line formats by their mark. -/
def lineFormats : String :=
  "\x7b'%': (<class 'logging.PercentStyle'>, '%(levelname)s:%(name)s:%(message)s'), " ++
    "'\x7b': (<class 'logging.StrFormatStyle'>, '\x7blevelname\x7d:\x7bname\x7d:\x7bmessage\x7d'), " ++
    "'$': (<class 'logging.StringTemplateStyle'>, '$\x7blevelname\x7d:$\x7bname\x7d:$\x7bmessage\x7d')\x7d"

/-- The number of a level. A name that is none counts as a warning, but the names of
the line format and of all line formats are refused. -/
def levelNumber : String → Except Failure Nat
  | "NOTSET" => .ok 0
  | "DEBUG" => .ok 10
  | "INFO" => .ok 20
  | "WARN" => .ok 30
  | "WARNING" => .ok 30
  | "ERROR" => .ok 40
  | "CRITICAL" => .ok 50
  | "FATAL" => .ok 50
  | "BASIC_FORMAT" => .error (.unknownLevel "%(levelname)s:%(name)s:%(message)s")
  | "_STYLES" => .error (.notLevel lineFormats)
  | _ => .ok 30

end RustMetrics
