import RustMetrics.Failure
import RustMetrics.Text.LetterCase

/-! Settings in force. Given values are laid over the defaults, and what decides the
kind and the form of a report is checked at once. File names and the log level
are looked at only when they are used. -/

namespace RustMetrics

structure Settings where
  data : Entries

namespace Settings

def ignoredByDefault : List String :=
  [".git", ".hg", ".svn", ".idea", ".vscode", "target", "node_modules", "vendor"]

def defaults : Settings where
  data :=
    [("version", .int 1),
      ("analysis", .map [("mode", .text "tree")]),
      ("files", .map [("extensions", .list [.text ".rs"]),
        ("ignored_dirs", .list (ignoredByDefault.map .text))]),
      ("thresholds", .map [("max_complexity", .null)]),
      ("reporting", .map [("format", .text "text")]),
      ("logging", .map [("level", .text "WARNING")])]

/-- The defaults as the text of a settings file. -/
def defaultsText : String :=
  "version: 1\nanalysis:\n  mode: tree\nfiles:\n  extensions:\n  - .rs\n  ignored_dirs:\n"
    ++ String.join (ignoredByDefault.map fun name => "  - " ++ name ++ "\n")
    ++ "thresholds:\n  max_complexity: null\nreporting:\n  format: text\nlogging:\n  level: WARNING\n"

/-- A top-level entry; one that is absent is an empty mapping. -/
def part (s : Settings) (name : String) : Value := (s.data.get? name).getD (.map [])

/-- Looks up a key in what should be a mapping. -/
def entry (v : Value) (key : String) (default : Value) : Except Failure Value :=
  match v with
  | .map entries => .ok ((Entries.get? entries key).getD default)
  | v => .error (.lacks v "get")

def mode (s : Settings) : Except Failure Value := entry (s.part "analysis") "mode" (.text "tree")

def reporting (s : Settings) : Value := s.part "reporting"

def format (s : Settings) : Except Failure Value := entry s.reporting "format" (.text "text")

def maxComplexity (s : Settings) : Except Failure Value :=
  entry (s.part "thresholds") "max_complexity" .null

/-- A file name extension is compared in lower case. Bytes and halved texts have a lower
case too, but no file name is one of them. -/
def lowered : Value → Except Failure (Option String)
  | .text s => .ok (some (Text.lower s))
  | .scalar (.halved _) => .ok none
  | .scalar (.bytes _) => .ok none
  | v => .error (.lacks v "lower")

/-- The extensions of source files, none twice. -/
def extensions (s : Settings) : Except Failure (List String) := do
  let v ← entry (s.part "files") "extensions" (.list [.text ".rs"])
  match v.members? with
  | none => .error (.notIterable v)
  | some members => return ((← members.mapM lowered).filterMap id).eraseDups

/-- Adds a value to a set, unless the set has it. -/
def joined (set : List Value) (v : Value) : Except Failure (List Value) :=
  match v.unhashable? with
  | some part => .error (.unhashable part)
  | none => .ok (if set.any (·.isSame v) then set else set ++ [v])

/-- The names that are left out below a directory. They are usually texts, but
nothing says so. -/
def ignored (s : Settings) : Except Failure (List Value) := do
  let v ← entry (s.part "files") "ignored_dirs" (.list [])
  match v.members? with
  | none => .error (.notIterable v)
  | some members => members.foldlM joined []

/-- The texts among some values. Nothing else can equal a name. -/
def texts (vs : List Value) : List String :=
  vs.filterMap fun
    | .text s => some s
    | _ => none

def logLevel (s : Settings) : Except Failure String := do
  let v ← entry (s.part "logging") "level" (.text "WARNING")
  if v.isWritable then return Text.upper v.plain else .error .tooManyDigits

def isMode : Value → Bool
  | .text s => s == "tree" || s == "graph"
  | _ => false

def isFormat : Value → Bool
  | .text s => s == "text" || s == "json"
  | _ => false

/-- A limit is a natural number; none at all is fine too. -/
def isLimit : Value → Bool
  | .null => true
  | .int n => 0 ≤ n
  | _ => false

/-- Refuses a value, which has to be shown for that. -/
def refuse (fault : Value → SettingsFault) (v : Value) : Failure :=
  if v.isWritable then .settings (fault v) else .tooManyDigits

/-- Checks mode, format and limit, in this order. -/
def check (s : Settings) : Except Failure Settings := do
  let mode ← s.mode
  if !isMode mode then .error (refuse .unknownMode mode)
  else
    let format ← s.format
    if !isFormat format then .error (refuse .unknownFormat format)
    else
      let limit ← s.maxComplexity
      if !isLimit limit then .error (refuse .badLimit limit) else return s

/-- The settings that a value gives: the defaults with the value over them. -/
def ofValue : Value → Except Failure Settings
  | .map entries => check ⟨Entries.merge defaults.data entries⟩
  | _ => .error (.settings .notMapping)

/-- The name that no section can have. -/
def reservedName : String := "self"

/-- Settings with sections laid over them; an empty section changes nothing. -/
def override (s : Settings) (sections : Entries) : Except Failure Settings :=
  if (sections.get? reservedName).isSome then .error (.reservedSection reservedName)
  else ofValue (.map (Entries.merge s.data (sections.filter fun e => !e.2.isEmpty)))

/-- Whether files are reported as graphs. -/
def wantsGraph (s : Settings) : Bool :=
  match s.mode with
  | .ok (.text m) => m == "graph"
  | _ => false

def wantsJson (s : Settings) : Bool :=
  match s.format with
  | .ok (.text f) => f == "json"
  | _ => false

def limit (s : Settings) : Option Int :=
  match s.maxComplexity with
  | .ok (.int n) => some n
  | _ => none

end Settings

end RustMetrics
