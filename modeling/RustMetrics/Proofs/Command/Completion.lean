import RustMetrics.Command.Run
import RustMetrics.Proofs.Except

/-! The steps of an analysis. Settings are read and laid over one another, the level of the log
is found out, files are found, each is reported on, the reports are put into a text, and the
text is delivered. If all of that succeeds there is a `Completion`, which has what each
step gives, and it decides the outcome; otherwise the run failed. What an outcome can be is
said here once, for all that follows. -/

namespace RustMetrics

/-- The value of a settings file. Without a file, nothing is set. -/
def Disk.settingsValue (d : Disk) : Option String → Except Failure Value
  | none => .ok (.map [])
  | some "" => .ok (.map [])
  | some name => do
    match ← d.find (.ofString name) with
    | none => .error (.noSettingsFile name)
    | some .dir => .error (.isDirectory (Path.ofString name).toString)
    | some (.file f) => f.value (.ofString name)

/-- The defaults are the settings that nothing is laid over. -/
theorem Disk.settings_eq (d : Disk) (name : Option String) :
    d.settings name = d.settingsValue name >>= Settings.ofValue := by
  cases name with
  | none => rfl
  | some name =>
    by_cases hname : name = ""
    · subst hname
      rfl
    · rw [settings, settingsValue]
      · cases d.find (.ofString name) with
        | error e => rfl
        | ok found =>
          cases found with
          | none => rfl
          | some e => cases e <;> rfl
      · exact hname
      · exact hname

namespace Survey

variable {wantsGraph : Bool} {last : Option Failure} {s : Source} {sources : List Source}
  {r : Report Fingerprint} {reports : List (Report Fingerprint)}

theorem all_ofSources_cons (h : s.report wantsGraph = .ok r) :
    (ofSources wantsGraph last (s :: sources)).all =
      (ofSources wantsGraph last sources).all.map (r :: ·) := by
  simp only [ofSources, h, all]
  cases (ofSources wantsGraph last sources).failure <;> rfl

/-- A survey comes to an end if its list of files does and each file can be reported on. -/
theorem all_ofSources_eq_ok_iff :
    (ofSources wantsGraph last sources).all = .ok reports ↔
      last = none ∧ sources.mapM (Source.report wantsGraph) = .ok reports := by
  induction sources generalizing reports with
  | nil =>
    cases last with
    | none => exact (and_iff_right rfl).symm
    | some e => simp [ofSources, all]
  | cons s sources ih =>
    rw [List.mapM_cons]
    cases h : s.report wantsGraph with
    | error e => simp [ofSources, h, all, bind, Except.bind]
    | ok r =>
      rw [all_ofSources_cons h, map_eq_ok_iff]
      show _ ↔ last = none ∧ (sources.mapM (Source.report wantsGraph) >>= fun rs => .ok (r :: rs)) =
        .ok reports
      rw [bind_eq_ok_iff]
      constructor
      · rintro ⟨rs, hrs, rfl⟩
        exact ⟨(ih.mp hrs).1, rs, (ih.mp hrs).2, rfl⟩
      · rintro ⟨hlast, rs, hrs, hreports⟩
        exact ⟨rs, ih.mpr ⟨hlast, hrs⟩, Except.ok.inj hreports⟩

end Survey

/-- All files are reported on if the path names something, its files are found, and each of
them can be reported on. -/
theorem Settings.analyse_eq_ok_iff {s : Settings} {d : Disk} {path : String}
    {reports : List (Report Fingerprint)} :
    s.analyse d path = .ok reports ↔
      (∃ e, d.find (.ofString path) = .ok (some e)) ∧
      ∃ files, s.sources d path = .ok ⟨files, none⟩ ∧
        (files.map Disk.source).mapM (Source.report s.wantsGraph) = .ok reports := by
  rw [analyse, surveyExisting]
  cases d.find (.ofString path) with
  | error e => simp [Survey.all]
  | ok found =>
    cases found with
    | none => simp [Survey.all]
    | some e =>
      simp only [survey, Except.ok.injEq, Option.some.injEq, exists_eq', true_and]
      cases s.sources d path with
      | error e => simp [Survey.all]
      | ok found =>
        obtain ⟨files, failure⟩ := found
        show (Survey.ofSources _ _ _).all = _ ↔ _
        rw [Survey.all_ofSources_eq_ok_iff]
        constructor
        · rintro ⟨rfl, h⟩
          exact ⟨files, rfl, h⟩
        · rintro ⟨files', hfiles, h⟩
          cases hfiles
          exact ⟨rfl, h⟩

namespace Command

variable {a : Analysis} {d : Disk}

/-- All steps of an analysis, with what each of them gives. `given` is what the settings file
holds, and `loaded` are the settings that it gives by itself. -/
structure Analysis.Completion (a : Analysis) (d : Disk) where
  given : Value
  loaded : Settings
  settings : Settings
  level : Nat
  files : List (Path × File)
  reports : List (Report Fingerprint)
  text : String
  delivered : String × Disk
  reads : d.settingsValue a.settings = .ok given
  loads : Settings.ofValue given = .ok loaded
  overrides : loaded.override a.sections = .ok settings
  levels : a.level settings = .ok level
  found : ∃ e, d.find (.ofString a.path) = .ok (some e)
  finds : settings.sources d a.path = .ok ⟨files, none⟩
  analyses : (files.map Disk.source).mapM (Source.report settings.wantsGraph) = .ok reports
  renders : rendered settings reports = .ok text
  delivers : a.deliver d text = .ok delivered

namespace Analysis

theorem prepare_eq_ok_iff {s : Settings} {level : Nat} :
    a.prepare d = .ok (s, level) ↔
      ∃ given loaded, d.settingsValue a.settings = .ok given ∧
        Settings.ofValue given = .ok loaded ∧ loaded.override a.sections = .ok s ∧
        a.level s = .ok level := by
  have hprepare : a.prepare d = ((d.settingsValue a.settings >>= Settings.ofValue) >>=
      fun loaded => loaded.override a.sections) >>= fun s => a.level s >>= fun l => .ok (s, l) := by
    rw [← d.settings_eq]
    rfl
  rw [hprepare]
  simp only [bind_eq_ok_iff, Except.ok.injEq, Prod.mk.injEq]
  constructor
  · rintro ⟨s', ⟨loaded, ⟨given, hgiven, hloaded⟩, hs⟩, level', hlevel, rfl, rfl⟩
    exact ⟨given, loaded, hgiven, hloaded, hs, hlevel⟩
  · rintro ⟨given, loaded, hgiven, hloaded, hs, hlevel⟩
    exact ⟨s, ⟨loaded, ⟨given, hgiven, hloaded⟩, hs⟩, level, hlevel, rfl, rfl⟩

/-- Steps that all succeed are a completion. -/
theorem exists_completion {s : Settings} {level : Nat} {files : List (Path × File)}
    {reports : List (Report Fingerprint)} {delivered : String × Disk}
    (hprepare : a.prepare d = .ok (s, level)) (hfound : ∃ e, d.find (.ofString a.path) = .ok (some e))
    (hfinds : s.sources d a.path = .ok ⟨files, none⟩)
    (hanalyses : (files.map Disk.source).mapM (Source.report s.wantsGraph) = .ok reports)
    (hdelivered : rendered s reports >>= a.deliver d = .ok delivered) :
    ∃ c : a.Completion d, c.files = files := by
  obtain ⟨given, loaded, hreads, hloads, hoverrides, hlevels⟩ := prepare_eq_ok_iff.mp hprepare
  obtain ⟨text, hrenders, hdelivers⟩ := bind_eq_ok_iff.mp hdelivered
  exact ⟨⟨given, loaded, s, level, files, reports, text, delivered, hreads, hloads, hoverrides,
    hlevels, hfound, hfinds, hanalyses, hrenders, hdelivers⟩, rfl⟩

def Completion.log (c : a.Completion d) : String :=
  (c.settings.surveyExisting d a.path).logText c.level

/-- A completion decides the outcome. -/
theorem Completion.run_eq (c : a.Completion d) (debug : Bool) :
    a.run debug d =
      ⟨.ok (exitCode c.settings c.reports), c.delivered.1, c.log, c.delivered.2⟩ := by
  have hprepare : a.prepare d = .ok (c.settings, c.level) :=
    prepare_eq_ok_iff.mpr ⟨c.given, c.loaded, c.reads, c.loads, c.overrides, c.levels⟩
  have hall : (c.settings.surveyExisting d a.path).all = .ok c.reports :=
    Settings.analyse_eq_ok_iff.mpr ⟨c.found, c.files, c.finds, c.analyses⟩
  have hdelivered : rendered c.settings c.reports >>= a.deliver d = .ok c.delivered :=
    bind_eq_ok_iff.mpr ⟨c.text, c.renders, c.delivers⟩
  simp only [run, hprepare, hall, hdelivered]
  rfl

/-- An analysis goes through all of its steps or fails at one of them. -/
theorem completes_or_fails (a : Analysis) (debug : Bool) (d : Disk) :
    Nonempty (a.Completion d) ∨ ∃ log e, a.run debug d = failed debug d log e := by
  rw [run]
  cases hprepare : a.prepare d with
  | error e => exact .inr ⟨_, _, rfl⟩
  | ok prepared =>
    obtain ⟨s, level⟩ := prepared
    dsimp only
    cases hall : (s.surveyExisting d a.path).all with
    | error e => exact .inr ⟨_, _, rfl⟩
    | ok reports =>
      obtain ⟨hfound, files, hfinds, hanalyses⟩ := Settings.analyse_eq_ok_iff.mp hall
      dsimp only
      cases hdelivered : rendered s reports >>= a.deliver d with
      | error e => exact .inr ⟨_, _, rfl⟩
      | ok delivered =>
        obtain ⟨c, _⟩ := exists_completion hprepare hfound hfinds hanalyses hdelivered
        exact .inl ⟨c⟩

end Analysis

end Command

end RustMetrics
