import RustMetrics.Proofs.Command.Completion
import RustMetrics.Proofs.Disk.Write

/-! What runs leave behind. A run does all that it was asked for or nothing: it touches the disk
only at its very end, and then at one place. An analysis with a file for its report puts there
what it would have printed. In a row of runs each starts on the disk that the one before
it left, so a place changes only through a run that succeeded and meant that place. -/

namespace RustMetrics.Command

variable {a : Analysis} {d : Disk} {debug force : Bool} {text : String}

namespace Analysis

/-- The same analysis with its report printed. -/
def printing (a : Analysis) : Analysis := { a with output := none }

/-- The file for the report. An empty name is no file. -/
def outputFile? (a : Analysis) : Option String := a.output.filter (· != "")

theorem deliver_of_none (h : a.outputFile? = none) : a.deliver d text = .ok (text, d) := by
  rw [outputFile?] at h
  cases houtput : a.output with
  | none => rw [deliver, houtput]
  | some name =>
    have hname : name = "" := by simpa [houtput] using h
    rw [deliver, houtput, hname]
    rfl

theorem deliver_of_some {name : String} (h : a.outputFile? = some name) :
    a.deliver d text = (d.write (.ofString name) text).map fun d => ("", d) := by
  obtain ⟨houtput, hname⟩ := Option.filter_eq_some_iff.mp h
  rw [deliver, houtput]
  split
  · next h => cases h
  · next h =>
    cases h
    cases hname
  · next h =>
    cases h
    rfl

/-- Without a file for the report, a run is the one that prints. -/
theorem run_of_none (h : a.outputFile? = none) : a.run debug d = a.printing.run debug d := by
  have hdeliver : a.deliver d = a.printing.deliver d := by
    funext text
    rw [deliver_of_none h]
    rfl
  rw [run, run, hdeliver]
  rfl

namespace Completion

/-- What can be done with a file for the report can be done without one. -/
def printing (c : a.Completion d) : a.printing.Completion d :=
  { c with delivered := (c.text, d), delivers := rfl }

theorem stdout_printing (c : a.Completion d) : (a.printing.run debug d).stdout = c.text := by
  rw [c.printing.run_eq]
  rfl

theorem exit_printing (c : a.Completion d) :
    (a.printing.run debug d).exit = .ok (exitCode c.settings c.reports) := by
  rw [c.printing.run_eq]
  rfl

theorem delivered_of_none (c : a.Completion d) (h : a.outputFile? = none) :
    c.delivered = (c.text, d) := by
  have hdelivers := c.delivers
  rw [deliver_of_none h] at hdelivers
  exact (Except.ok.inj hdelivers).symm

theorem delivered_of_some (c : a.Completion d) {name : String} (h : a.outputFile? = some name) :
    c.delivered.1 = "" ∧ ∃ place, d.placeOf (.ofString name) = .ok place ∧
      Disk.Wrote d c.delivered.2 place c.text := by
  have hdelivers := c.delivers
  rw [deliver_of_some h, map_eq_ok_iff] at hdelivers
  obtain ⟨after, hwrite, hdelivered⟩ := hdelivers
  rw [← hdelivered]
  exact ⟨rfl, Disk.wrote_of_write hwrite⟩

end Completion

end Analysis

theorem exitCode_cases (s : Settings) (reports : List (Report Fingerprint)) :
    exitCode s reports = 0 ∨ exitCode s reports = 2 := by
  unfold exitCode
  split
  · exact .inl rfl
  · exact .inr rfl

namespace Outcome

/-- A run returned 1, or ended with its failure. -/
def Fails (o : Outcome) : Prop := o.exit = .ok 1 ∨ ∃ e, o.exit = .error e

def Succeeds (o : Outcome) : Prop := o.exit = .ok 0 ∨ o.exit = .ok 2

theorem not_succeeds_of_fails {o : Outcome} (h : o.Fails) : ¬o.Succeeds := by
  rintro (hs | hs) <;> rcases h with h | ⟨e, h⟩ <;> rw [hs] at h <;> cases h

theorem fails_failed (log : String) (e : Failure) : (failed debug d log e).Fails := by
  cases debug with
  | false => exact .inl rfl
  | true => exact .inr ⟨e, rfl⟩

end Outcome

theorem Analysis.Completion.succeeds (c : a.Completion d) : (a.run debug d).Succeeds := by
  rw [c.run_eq]
  rcases exitCode_cases c.settings c.reports with h | h
  · exact .inl (congrArg Except.ok h)
  · exact .inr (congrArg Except.ok h)

/-- Where the settings file is. -/
def settingsPlace (d : Disk) : Place := d.cwd ++ [settingsFile]

theorem placeOf_settingsFile (d : Disk) :
    d.placeOf (.ofString settingsFile) = .ok (settingsPlace d) := by
  show d.locate d.cwd [settingsFile] = _
  rw [Disk.locate, Disk.isDir_iff.mp d.isDir_cwd]
  rfl

theorem holds_settingsFile (d : Disk) :
    d.holds (.ofString settingsFile) = (d.entry? (settingsPlace d)).isSome := by
  rw [Disk.holds, Disk.find, placeOf_settingsFile]

/-- A settings file that is not written leaves the disk as it was. -/
theorem runInit_cases (force debug : Bool) (d : Disk) :
    ((runInit force debug d).Fails ∧ (runInit force debug d).disk = d) ∨
    (runInit force debug d).Succeeds ∧ (force = true ∨ d.entry? (settingsPlace d) = none) ∧
      Disk.Wrote d (runInit force debug d).disk (settingsPlace d) Settings.defaultsText := by
  rw [runInit, holds_settingsFile]
  split
  · exact .inl ⟨.inl rfl, rfl⟩
  · next hfree =>
    cases hwrite : d.write (.ofString settingsFile) Settings.defaultsText with
    | error e => exact .inl ⟨Outcome.fails_failed "" e, rfl⟩
    | ok after =>
      obtain ⟨place, hplace, hwrote⟩ := Disk.wrote_of_write hwrite
      rw [placeOf_settingsFile] at hplace
      cases hplace
      refine .inr ⟨.inl rfl, ?_, hwrote⟩
      cases force with
      | true => exact .inl rfl
      | false => exact .inr (by simpa using hfree)

/-- A run, with the disk it starts on. -/
structure Turn where
  before : Disk
  debug : Bool
  args : List String

namespace Turn

variable {t : Turn}

def outcome (t : Turn) : Outcome := run t.debug t.before t.args

def after (t : Turn) : Disk := t.outcome.disk

/-- The place that a run is to write at, and the text. -/
def aim? (t : Turn) : Option (Place × String) :=
  match parse t.args with
  | .error _ => none
  | .ok (.init _) => some (settingsPlace t.before, Settings.defaultsText)
  | .ok (.analyse a) => do
    let name ← a.outputFile?
    let place ← (t.before.placeOf (.ofString name)).toOption
    return (place, (a.printing.run t.debug t.before).stdout)

/-- A run has put a file at a place: it succeeded, was to write there, and the file has its
text. -/
def Put (t : Turn) (q : Place) (e : Option Entry) : Prop :=
  t.outcome.Succeeds ∧
    ∃ text f, t.aim? = some (q, text) ∧ e = some (.file f) ∧ f.bytes = text.toUTF8

/-- What an analysis does with its report. -/
structure Reports (t : Turn) (a : Analysis) : Prop where
  silent : t.outcome.Fails → t.outcome.stdout = ""
  prints : a.outputFile? = none →
    t.after = t.before ∧ t.outcome = a.printing.run t.debug t.before
  writes : ∀ name, a.outputFile? = some name → t.outcome.Succeeds →
    t.outcome.stdout = "" ∧ t.outcome.exit = (a.printing.run t.debug t.before).exit ∧
    ∃ place, t.before.placeOf (.ofString name) = .ok place ∧
      Disk.Wrote t.before t.after place (a.printing.run t.debug t.before).stdout

/-- What is done to the settings file. -/
structure Initialises (t : Turn) (force : Bool) : Prop where
  keeps : force = false → t.before.entry? (settingsPlace t.before) ≠ none → t.after = t.before
  writes : t.outcome.Succeeds →
    Disk.Wrote t.before t.after (settingsPlace t.before) Settings.defaultsText

structure AllOrNothing (t : Turn) : Prop where
  ends : t.outcome.Fails ∨ t.outcome.Succeeds
  fails : t.outcome.Fails → t.after = t.before
  stops : ∀ stop, parse t.args = .error stop → t.after = t.before
  reports : ∀ a, parse t.args = .ok (.analyse a) → t.Reports a
  initialises : ∀ force, parse t.args = .ok (.init force) → t.Initialises force

theorem outcome_of_parse {r : Request} (h : parse t.args = .ok r) :
    t.outcome = r.run t.debug t.before := by
  rw [outcome, run, h]

theorem reports_of_parse (h : parse t.args = .ok (.analyse a)) : t.Reports a := by
  have houtcome : t.outcome = a.run t.debug t.before := outcome_of_parse h
  rcases a.completes_or_fails t.debug t.before with ⟨⟨c⟩⟩ | ⟨log, e, hrun⟩
  · refine ⟨?_, ?_, ?_⟩
    · intro hfails
      rw [houtcome] at hfails
      exact absurd c.succeeds (Outcome.not_succeeds_of_fails hfails)
    · intro hnone
      refine ⟨?_, houtcome.trans (Analysis.run_of_none hnone)⟩
      rw [after, houtcome, c.run_eq, c.delivered_of_none hnone]
    · intro name hname _
      obtain ⟨hstdout, hwrote⟩ := c.delivered_of_some hname
      rw [after, c.stdout_printing, c.exit_printing, houtcome, c.run_eq]
      exact ⟨hstdout, rfl, hwrote⟩
  · refine ⟨?_, ?_, ?_⟩
    · intro _
      rw [houtcome, hrun]
      rfl
    · intro hnone
      refine ⟨?_, houtcome.trans (Analysis.run_of_none hnone)⟩
      rw [after, houtcome, hrun]
      rfl
    · intro name _ hsucceeds
      rw [houtcome, hrun] at hsucceeds
      exact absurd hsucceeds (Outcome.not_succeeds_of_fails (Outcome.fails_failed log e))

theorem initialises_of_parse (h : parse t.args = .ok (.init force)) : t.Initialises force := by
  have hcases := runInit_cases force t.debug t.before
  rw [show runInit force t.debug t.before = t.outcome from (outcome_of_parse h).symm] at hcases
  rcases hcases with ⟨hfails, hsame⟩ | ⟨_, hfree, hwrote⟩
  · exact ⟨fun _ _ => hsame, fun hs => absurd hs (Outcome.not_succeeds_of_fails hfails)⟩
  · refine ⟨?_, fun _ => hwrote⟩
    intro hforce hthere
    rcases hfree with hfree | hfree
    · exact absurd (hforce.symm.trans hfree) Bool.false_ne_true
    · exact absurd hfree hthere

/-- A run that does not succeed has changed nothing. -/
theorem fails_or_succeeds (t : Turn) :
    (t.outcome.Fails ∧ t.after = t.before) ∨ t.outcome.Succeeds := by
  cases hparse : parse t.args with
  | error stop =>
    rw [outcome, run, hparse]
    cases stop with
    | shown text => exact .inr (.inl rfl)
    | refused text => exact .inr (.inr rfl)
  | ok r =>
    rw [after, outcome_of_parse hparse]
    cases r with
    | analyse a =>
      rcases a.completes_or_fails t.debug t.before with ⟨⟨c⟩⟩ | ⟨log, e, hrun⟩
      · exact .inr c.succeeds
      · rw [Request.run, hrun]
        exact .inl ⟨Outcome.fails_failed log e, rfl⟩
    | init force =>
      rcases runInit_cases force t.debug t.before with hkept | ⟨hsucceeds, _⟩
      · exact .inl hkept
      · exact .inr hsucceeds

theorem allOrNothing (t : Turn) : t.AllOrNothing where
  ends := t.fails_or_succeeds.imp_left And.left
  fails := by
    intro hfails
    rcases t.fails_or_succeeds with ⟨_, hsame⟩ | hsucceeds
    · exact hsame
    · exact absurd hsucceeds (Outcome.not_succeeds_of_fails hfails)
  stops := by
    intro stop hstop
    rw [after, outcome, run, hstop]
    cases stop <;> rfl
  reports := fun _ => reports_of_parse
  initialises := fun _ => initialises_of_parse

/-- A place keeps its entry, unless a run puts a file there. -/
theorem entry_after (t : Turn) (q : Place) :
    t.after.entry? q = t.before.entry? q ∨ t.Put q (t.after.entry? q) := by
  have ht := t.allOrNothing
  rcases ht.ends with hfails | hsucceeds
  · exact .inl (by rw [ht.fails hfails])
  · -- all that is left to say is which place is written at, if any is
    suffices h : t.after = t.before ∨
        ∃ place text, t.aim? = some (place, text) ∧ t.before.Wrote t.after place text by
      rcases h with hsame | ⟨place, text, haim, hwrote⟩
      · exact .inl (by rw [hsame])
      · by_cases hq : q = place
        · obtain ⟨f, hf, hbytes⟩ := hwrote.there
          subst hq
          exact .inr ⟨hsucceeds, text, f, haim, hf, hbytes⟩
        · exact .inl (hwrote.others q hq)
    rw [aim?]
    cases hparse : parse t.args with
    | error stop => exact .inl (ht.stops stop hparse)
    | ok r =>
      cases r with
      | init force => exact .inr ⟨_, _, rfl, (ht.initialises force hparse).writes hsucceeds⟩
      | analyse a =>
        have hreports := ht.reports a hparse
        cases hfile : a.outputFile? with
        | none => exact .inl (hreports.prints hfile).1
        | some name =>
          obtain ⟨_, _, place, hplace, hwrote⟩ := hreports.writes name hfile hsucceeds
          refine .inr ⟨place, _, ?_, hwrote⟩
          simp [hfile, hplace, Except.toOption]

end Turn

/-- Runs one after the other, each on the disk that the one before it left. -/
def session (d : Disk) : List (Bool × List String) → List Turn
  | [] => []
  | (debug, args) :: runs =>
    let t : Turn := ⟨d, debug, args⟩
    t :: session t.after runs

/-- The disk that is left in the end. -/
def lastDisk (d : Disk) : List (Bool × List String) → Disk
  | [] => d
  | (debug, args) :: runs => lastDisk (run debug d args).disk runs

theorem entry_lastDisk (d : Disk) (runs : List (Bool × List String)) (q : Place) :
    Disk.entry? (lastDisk d runs) q = d.entry? q ∨
      ∃ t ∈ session d runs, t.Put q (Disk.entry? (lastDisk d runs) q) := by
  induction runs generalizing d with
  | nil => exact .inl rfl
  | cons r runs ih =>
    obtain ⟨debug, args⟩ := r
    let t : Turn := ⟨d, debug, args⟩
    have hlast : lastDisk d ((debug, args) :: runs) = lastDisk t.after runs := rfl
    have hturns : session d ((debug, args) :: runs) = t :: session t.after runs := rfl
    rw [hlast, hturns]
    rcases ih t.after with hsame | ⟨u, hu, hput⟩
    · rw [hsame]
      rcases t.entry_after q with hfirst | hput
      · exact .inl hfirst
      · exact .inr ⟨t, List.mem_cons_self, hput⟩
    · exact .inr ⟨u, List.mem_cons_of_mem _ hu, hput⟩

/-- Each run of a row does all or nothing, and in the end each place is as it was in the
beginning or holds a file that one of the runs put there. -/
theorem runs_are_all_or_nothing (d : Disk) (runs : List (Bool × List String)) :
    (∀ t ∈ session d runs, t.AllOrNothing) ∧
    ∀ q, Disk.entry? (lastDisk d runs) q = d.entry? q ∨
      ∃ t ∈ session d runs, t.Put q (Disk.entry? (lastDisk d runs) q) :=
  ⟨fun t _ => t.allOrNothing, entry_lastDisk d runs⟩

/-- A disk with one source file, which is empty. -/
def oneSource : Disk := Disk.workplace.addFile (.ofString "a.rs") .blank

/-- An analysis of the one source file. -/
def treeOf (output : Option String) : Analysis := ⟨.tree, "a.rs", none, none, output, .unset, false⟩

/-- The report goes to a file above the directory of the run. -/
def reportTurn : Turn := ⟨oneSource, false, ["tree", "a.rs", "-o", "/r.txt"]⟩

/-- A report is written, settings are written, and then they are there already. -/
def threeRuns : List (Bool × List String) :=
  [(false, reportTurn.args), (false, ["init"]), (true, ["init"])]

def refusedTurn : Turn := ⟨lastDisk oneSource (threeRuns.take 2), true, ["init"]⟩

theorem parse_reportTurn : parse reportTurn.args = .ok (.analyse (treeOf (some "/r.txt"))) := by
  decide +kernel

theorem stdout_reportTurn :
    ((treeOf (some "/r.txt")).printing.run reportTurn.debug reportTurn.before).stdout =
      "File: a.rs\n\n" := by
  decide +kernel

theorem runs_are_all_or_nothing_in_threeRuns :
    (reportTurn.outcome.exit = .ok 0 ∧ oneSource.cwd = ["w"] ∧
      oneSource.placeOf (.ofString "/r.txt") = .ok ["r.txt"] ∧
      oneSource.Wrote reportTurn.after ["r.txt"] "File: a.rs\n\n") ∧
    (refusedTurn.before.entry? ["w", settingsFile] ≠ none ∧
      refusedTurn.after = refusedTurn.before) ∧
    Disk.entry? (lastDisk oneSource threeRuns) ["w", "a.rs"] = oneSource.entry? ["w", "a.rs"] := by
  obtain ⟨hturns, hentries⟩ := runs_are_all_or_nothing oneSource threeRuns
  have hreport := hturns reportTurn List.mem_cons_self
  have hrefused := hturns refusedTurn (.tail _ (.tail _ (.head _)))
  have hexit : reportTurn.outcome.exit = .ok 0 := eq_ok_of_toOption (by decide +kernel)
  have hplace : oneSource.placeOf (.ofString "/r.txt") = .ok ["r.txt"] := rfl
  have hthere : refusedTurn.before.entry? ["w", settingsFile] ≠ none := by
    rw [← Option.isSome_iff_ne_none]
    decide +kernel
  refine ⟨⟨hexit, rfl, hplace, ?_⟩, ⟨hthere, ?_⟩, ?_⟩
  · obtain ⟨_, _, place, hwhere, hwrote⟩ :=
      (hreport.reports _ parse_reportTurn).writes "/r.txt" rfl (.inl hexit)
    cases hplace.symm.trans hwhere
    rwa [stdout_reportTurn] at hwrote
  · have hcwd : settingsPlace refusedTurn.before = ["w", settingsFile] := by decide +kernel
    refine (hrefused.initialises false (by decide +kernel)).keeps rfl ?_
    rwa [hcwd]
  · have haims : ∀ t ∈ session oneSource threeRuns, t.aim?.map Prod.fst ≠ some ["w", "a.rs"] := by
      decide +kernel
    rcases hentries ["w", "a.rs"] with hsame | ⟨t, ht, _, text, _, haim, _⟩
    · exact hsame
    · exact absurd (by rw [haim]; rfl) (haims t ht)

/-- An output with an empty name is given and nothing is written to it. -/
theorem empty_output_is_not_written :
    ¬∀ (t : Turn) (a : Analysis) (name : String), parse t.args = .ok (.analyse a) →
      a.output = some name → t.outcome.exit = .ok 0 →
      ∃ place, t.before.placeOf (.ofString name) = .ok place ∧
        t.before.Wrote t.after place (a.printing.run t.debug t.before).stdout := by
  intro h
  have hparse : parse ["tree", "a.rs", "-o", ""] = .ok (.analyse (treeOf (some ""))) := by
    decide +kernel
  have hexit : (run false oneSource ["tree", "a.rs", "-o", ""]).exit = .ok 0 :=
    eq_ok_of_toOption (by decide +kernel)
  obtain ⟨place, hplace, hwrote⟩ :=
    h ⟨oneSource, false, ["tree", "a.rs", "-o", ""]⟩ _ "" hparse rfl hexit
  -- the empty name leads to the directory of the run, which is no file
  cases hplace
  obtain ⟨f, hf, _⟩ := hwrote.there
  cases hf

end RustMetrics.Command
