import RustMetrics.Command.Request
import RustMetrics.Log
import RustMetrics.Report.Document
import RustMetrics.Report.Text
import RustMetrics.Settings.Load

/-! Running a request on a disk. A run that fails prints nothing and changes nothing;
the exit code is 1 then, 2 if a report is above the limit, and 0 otherwise. -/

namespace RustMetrics.Command

/-- What a run leaves behind. A run that is being looked into ends with its failure
in place of an exit code. -/
structure Outcome where
  exit : Except Failure Nat
  stdout : String
  stderr : String
  disk : Disk

def settingsFile : String := ".cyclomatic.yaml"

/-- A limit as the value of a setting. -/
def Limit.value? : Limit → Option Value
  | unset => none
  | blank => some (.list [])
  | number n => some (.int n)

/-- The sections that a command line lays over the settings. -/
def Analysis.sections (a : Analysis) : Entries :=
  [("analysis", .map [("mode", .text a.mode.name)]),
    ("reporting", (a.format.map fun f => Value.map [("format", .text f.name)]).getD .null),
    ("thresholds", (a.limit.value?.map fun v => Value.map [("max_complexity", v)]).getD .null)]

/-- The settings of an analysis. -/
def Analysis.settingsOn (a : Analysis) (d : Disk) : Except Failure Settings := do
  let s ← d.settings a.settings
  s.override a.sections

def Analysis.level (a : Analysis) (s : Settings) : Except Failure Nat :=
  if a.verbose then .ok 10 else s.logLevel >>= levelNumber

/-- The settings and the level of the log, found out before any file is read. -/
def Analysis.prepare (a : Analysis) (d : Disk) : Except Failure (Settings × Nat) := do
  let s ← a.settingsOn d
  let level ← a.level s
  return (s, level)

/-- The reports in the form that the settings ask for. -/
def rendered (s : Settings) (reports : List (Report Fingerprint)) : Except Failure String :=
  if s.wantsJson then (Report.printedJson reports).map (· ++ "\n")
  else Report.printedText reports

def exitCode (s : Settings) (reports : List (Report Fingerprint)) : Nat :=
  if (s.exceeding reports).isEmpty then 0 else 2

/-- Puts the report where it belongs: what is printed, and the disk after it. -/
def Analysis.deliver (a : Analysis) (d : Disk) (text : String) : Except Failure (String × Disk) :=
  match a.output with
  | none => .ok (text, d)
  | some "" => .ok (text, d)
  | some name => (d.write (.ofString name) text).map fun d => ("", d)

/-- A run that ends with a failure. -/
def failed (debug : Bool) (d : Disk) (log : String) (e : Failure) : Outcome where
  exit := if debug then .error e else .ok 1
  stdout := ""
  stderr := log ++ "Error: " ++ e.message ++ "\n"
  disk := d

def Analysis.run (a : Analysis) (debug : Bool) (d : Disk) : Outcome :=
  match a.prepare d with
  | .error e => failed debug d "" e
  | .ok (s, level) =>
    let survey := s.surveyExisting d a.path
    let log := survey.logText level
    match survey.all with
    | .error e => failed debug d log e
    | .ok reports =>
      match rendered s reports >>= a.deliver d with
      | .error e => failed debug d log e
      | .ok (text, disk) => ⟨.ok (exitCode s reports), text, log, disk⟩

/-- Writes a settings file with the defaults. One that is there is kept, unless it
may be overwritten. -/
def runInit (force debug : Bool) (d : Disk) : Outcome :=
  if d.holds (.ofString settingsFile) && !force then
    ⟨.ok 1, "Configuration file " ++ settingsFile ++ " already exists.\nUse --force to overwrite.\n",
      "", d⟩
  else match d.write (.ofString settingsFile) Settings.defaultsText with
    | .error e => failed debug d "" e
    | .ok disk => ⟨.ok 0, "Created configuration file: " ++ settingsFile ++ "\n", "", disk⟩

def Request.run (debug : Bool) (d : Disk) : Request → Outcome
  | .analyse a => a.run debug d
  | .init force => runInit force debug d

/-- Runs a command line. -/
def run (debug : Bool) (d : Disk) (args : List String) : Outcome :=
  match parse args with
  | .error (.shown text) => ⟨.ok 0, text, "", d⟩
  | .error (.refused text) => ⟨.ok 2, "", text, d⟩
  | .ok r => r.run debug d

end RustMetrics.Command
