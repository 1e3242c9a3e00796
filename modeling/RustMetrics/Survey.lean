import RustMetrics.Disk.Listing
import RustMetrics.Graph.Walk
import RustMetrics.Report.Basic
import RustMetrics.Symbol.Outline

/-! Reports on files. Files are taken one after another, and the first that cannot be
reported on ends the survey. -/

namespace RustMetrics

/-- What is found out about one file. -/
def Source.report (wantsGraph : Bool) (s : Source) : Except Failure (Report Fingerprint) := do
  let s ← s.check
  if wantsGraph then
    return { path := s.path, graph := some (← Graph.ofFile s.tree) }
  else
    return { path := s.path, tree := some (← s.root.outline s.path s.path) }

/-- The reports so far, and what ended the survey early: a file, or something before
any file was begun. -/
structure Survey where
  reports : List (Report Fingerprint)
  failure : Option (Option String × Failure)

namespace Survey

/-- Reports on files until one fails. `last` is what ends the list of files, if it was
cut short. -/
def ofSources (wantsGraph : Bool) (last : Option Failure) : List Source → Survey
  | [] => ⟨[], last.map (none, ·)⟩
  | s :: rest =>
    match s.report wantsGraph with
    | .error e => ⟨[], some (some s.path, e)⟩
    | .ok r =>
      let survey := ofSources wantsGraph last rest
      ⟨r :: survey.reports, survey.failure⟩

/-- The reports, if all files could be reported on. -/
def all (s : Survey) : Except Failure (List (Report Fingerprint)) :=
  match s.failure with
  | none => .ok s.reports
  | some (_, e) => .error e

end Survey

def Disk.source (entry : Path × File) : Source where
  path := entry.1.toString
  bytes := entry.2.bytes
  tree := entry.2.tree
  broken := entry.2.broken

namespace Settings

/-- The source files that a path names under some settings. -/
def sources (s : Settings) (d : Disk) (path : String) : Except Failure Finding := do
  let extensions ← s.extensions
  let ignored ← s.ignored
  return d.sources (.ofString path) extensions (texts ignored)

/-- Reports on the files that a path names. -/
def survey (s : Settings) (d : Disk) (path : String) : Survey :=
  match s.sources d path with
  | .error e => ⟨[], some (none, e)⟩
  | .ok found => .ofSources s.wantsGraph found.failure (found.files.map Disk.source)

/-- The same for a path that must name something. -/
def surveyExisting (s : Settings) (d : Disk) (path : String) : Survey :=
  match d.find (.ofString path) with
  | .error e => ⟨[], some (none, e)⟩
  | .ok none => ⟨[], some (none, .noSource path)⟩
  | .ok (some _) => s.survey d path

/-- The reports on all files that a path names. -/
def analyse (s : Settings) (d : Disk) (path : String) :
    Except Failure (List (Report Fingerprint)) := (s.surveyExisting d path).all

/-- The reports above the limit. -/
def exceeding (s : Settings) (reports : List (Report Fingerprint)) :
    List (Report Fingerprint) := Report.exceeding s.limit reports

end Settings

end RustMetrics
