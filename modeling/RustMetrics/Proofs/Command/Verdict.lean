import RustMetrics.Proofs.Command.Completion
import RustMetrics.Proofs.Disk.Naming
import RustMetrics.Proofs.Graph.Visits
import RustMetrics.Proofs.Report.Excess
import RustMetrics.Proofs.Settings.Merge

/-! The exit code as a verdict. An analysis that goes through returns 2 if there is a limit and
some file is above it, and 0 otherwise; one that does not returns 1. The limit is that of the
command line, or else that of the settings file; what a file is measured by depends on
the command alone, whatever mode the settings file asks for. -/

namespace RustMetrics

theorem File.exists_tidy_of_value {f : File} {path : Path} {v : Value}
    (h : f.value path = .ok v) : ∃ loose : Value, loose.tidy = v := by
  obtain ⟨_, _, h⟩ := bind_eq_ok_iff.mp h
  split at h
  · obtain ⟨loose, _, hv⟩ := bind_eq_ok_iff.mp h
    exact ⟨loose, Except.ok.inj hv⟩
  · obtain ⟨loose, _, hv⟩ := bind_eq_ok_iff.mp h
    replace hv := Except.ok.inj hv
    by_cases hempty : loose.isEmpty = true
    · rw [if_pos hempty] at hv
      exact ⟨.map [], hv⟩
    · rw [if_neg hempty] at hv
      exact ⟨loose, hv⟩

theorem Disk.exists_tidy_of_settingsValue {d : Disk} {name : Option String} {v : Value}
    (h : d.settingsValue name = .ok v) : ∃ loose : Value, loose.tidy = v := by
  cases name with
  | none => exact ⟨.map [], Except.ok.inj h⟩
  | some name =>
    by_cases hname : name = ""
    · subst hname
      exact ⟨.map [], Except.ok.inj h⟩
    · rw [settingsValue] at h
      · obtain ⟨found, _, h⟩ := bind_eq_ok_iff.mp h
        rcases found with _ | _ | f
        · cases h
        · cases h
        · exact File.exists_tidy_of_value h
      · exact hname

namespace Command.Analysis

open Settings (effective)

variable {a : Analysis} {d : Disk}

theorem tidy_effective (a : Analysis) :
    (Value.map (effective a.sections)).tidy = .map (effective a.sections) := by
  obtain ⟨mode, path, settings, format, output, limit, verbose⟩ := a
  cases format <;> cases limit <;> rfl

theorem mapped_effective (a : Analysis) (part : String) : (effective a.sections).Mapped part := by
  have hmaps : ∀ v ∈ (effective a.sections).map Prod.snd, ∃ m, v = .map m := by
    obtain ⟨mode, path, settings, format, output, limit, verbose⟩ := a
    cases format <;> cases limit <;>
      simp [effective, sections, Limit.value?, Value.isEmpty, Scalar.isEmpty]
  exact fun v hv => hmaps v (Entries.mem_of_get? hv)

theorem mode_effective (a : Analysis) :
    (effective a.sections).at? "analysis" "mode" = some (.text a.mode.name) := by
  obtain ⟨mode, path, settings, format, output, limit, verbose⟩ := a
  cases format <;> cases limit <;> rfl

theorem limit_effective (a : Analysis) :
    (effective a.sections).at? "thresholds" "max_complexity" = a.limit.value? := by
  obtain ⟨mode, path, settings, format, output, limit, verbose⟩ := a
  cases format <;> cases limit <;> rfl

/-- The limit in force: that of the command line, or else that of the settings file. By default
there is none. A blank limit is refused with the settings. -/
def limitOver (a : Analysis) (given : Value) : Option Int :=
  match a.limit with
  | .number n => some n
  | .blank => none
  | .unset =>
    match given.at? "thresholds" "max_complexity" with
    | some (.int n) => some n
    | _ => none

theorem limitOver_eq_some_iff {given : Value} {n : Int} :
    a.limitOver given = some n ↔
      a.limit.value? = some (.int n) ∨
      a.limit.value? = none ∧ given.at? "thresholds" "max_complexity" = some (.int n) := by
  rw [limitOver]
  cases a.limit with
  | number m => simp [Limit.value?]
  | blank => simp [Limit.value?]
  | unset =>
    cases given.at? "thresholds" "max_complexity" with
    | none => simp [Limit.value?]
    | some v =>
      cases v with
      | scalar x => cases x <;> simp [Limit.value?]
      | _ => simp [Limit.value?]

def wantsGraph (a : Analysis) : Bool := a.mode == .graph

namespace Completion

/-- The sections of a command line go before what the settings file says. -/
theorem at?_eq_scalar_iff (c : a.Completion d) {part key : String} {x : Scalar}
    (hloaded : c.loaded.data.Mapped part) (hsettings : c.settings.data.Mapped part) :
    c.settings.data.at? part key = some (.scalar x) ↔
      (effective a.sections).at? part key = some (.scalar x) ∨
      (effective a.sections).at? part key = none ∧
        (c.given.at? part key = some (.scalar x) ∨
          c.given.at? part key = none ∧
            Settings.defaults.data.at? part key = some (.scalar x)) := by
  obtain ⟨loose, htidy⟩ := Disk.exists_tidy_of_settingsValue c.reads
  exact Settings.at?_eq_scalar_iff htidy c.loads c.overrides
    (Value.singleAt_of_tidy a.tidy_effective part key) (a.mapped_effective part) hloaded hsettings

theorem checked_loaded (c : a.Completion d) : c.loaded.Checked :=
  (Settings.ofValue_eq_ok c.loads).1

theorem checked_settings (c : a.Completion d) : c.settings.Checked :=
  (Settings.ofValue_eq_ok (Settings.ofValue_of_override c.overrides)).1

theorem mode_settings (c : a.Completion d) : c.settings.mode = .ok (.text a.mode.name) := by
  have hmapped := c.checked_settings.mapped_analysis
  have hat : c.settings.data.at? "analysis" "mode" = some (.text a.mode.name) :=
    (c.at?_eq_scalar_iff c.checked_loaded.mapped_analysis hmapped).mpr (.inl a.mode_effective)
  rw [Settings.mode, Settings.entry_part hmapped, hat]
  rfl

theorem wantsGraph_settings (c : a.Completion d) : c.settings.wantsGraph = a.wantsGraph := by
  rw [Settings.wantsGraph, c.mode_settings, wantsGraph]
  cases a.mode <;> rfl

theorem limit_settings (c : a.Completion d) : c.settings.limit = a.limitOver c.given := by
  have hdefault : Settings.defaults.data.at? "thresholds" "max_complexity" = some .null := rfl
  ext n
  rw [c.checked_settings.limit_eq_some_iff,
    c.at?_eq_scalar_iff c.checked_loaded.mapped_thresholds c.checked_settings.mapped_thresholds,
    limit_effective, hdefault, limitOver_eq_some_iff]
  simp

theorem limit_nonneg (c : a.Completion d) {n : Int} (h : a.limitOver c.given = some n) :
    0 ≤ n := by
  rw [← c.limit_settings] at h
  exact c.checked_settings.limit_nonneg h

/-- There is a limit, and some file is above it. -/
def Exceeds (c : a.Completion d) : Prop :=
  ∃ n, a.limitOver c.given = some n ∧ ∃ f ∈ c.files, (Disk.source f).Exceeds a.wantsGraph n

theorem exceeding_ne_nil_iff (c : a.Completion d) :
    c.settings.exceeding c.reports ≠ [] ↔ c.Exceeds := by
  rw [Settings.exceeding, c.limit_settings, Exceeds]
  cases hlimit : a.limitOver c.given with
  | none => simp [Report.exceeding]
  | some n =>
    have hanalyses := c.analyses
    rw [c.wantsGraph_settings] at hanalyses
    have hfiles := Source.exists_lt_worst_iff hanalyses (c.limit_nonneg hlimit)
    simp only [Report.exceeding, ne_eq, List.filter_eq_nil_iff, decide_eq_true_eq, not_forall,
      not_not, exists_prop, hfiles]
    simp

theorem exit_run (c : a.Completion d) :
    (a.run false d).exit = .ok (if c.settings.exceeding c.reports = [] then 0 else 2) := by
  rw [c.run_eq, exitCode]
  simp only [List.isEmpty_iff]

theorem exit_eq_two_iff (c : a.Completion d) : (a.run false d).exit = .ok 2 ↔ c.Exceeds := by
  rw [c.exit_run, ← c.exceeding_ne_nil_iff]
  split <;> simp [*]

theorem exit_eq_zero_iff (c : a.Completion d) : (a.run false d).exit = .ok 0 ↔ ¬c.Exceeds := by
  rw [c.exit_run, ← c.exceeding_ne_nil_iff]
  split <;> simp [*]

theorem exit_ne_one (c : a.Completion d) : (a.run false d).exit ≠ .ok 1 := by
  rw [c.exit_run]
  split <;> simp

/-- In a survey of trees each file has an outline, and its functions and methods decide. -/
theorem exists_outline (c : a.Completion d) (hmode : a.mode = .tree) {f : Path × File}
    (hf : f ∈ c.files) :
    ∃ t, (Disk.source f).root.outline (Disk.source f).path (Disk.source f).path = .ok t ∧
      ∀ n, (Disk.source f).Exceeds a.wantsGraph n ↔
        ∃ l ∈ t.leaves, l.isCallable = true ∧ n < l.complexity := by
  have hgraph : a.wantsGraph = false := by rw [wantsGraph, hmode]; rfl
  have hanalyses := c.analyses
  rw [c.wantsGraph_settings, hgraph] at hanalyses
  obtain ⟨r, hr⟩ := exists_ok_of_mapM hanalyses (List.mem_map_of_mem hf)
  rw [hgraph]
  exact Source.exists_outline_of_report hr

end Completion

theorem nonempty_of_exit_ne_one (h : (a.run false d).exit ≠ .ok 1) :
    Nonempty (a.Completion d) := by
  rcases a.completes_or_fails false d with hc | ⟨log, e, hrun⟩
  · exact hc
  · exact absurd (by rw [hrun]; rfl) h

end Command.Analysis

namespace Command

variable {args : List String} {a : Analysis}

/-- The exit code of an analysis tells whether a file is above the limit in force. In a survey of
trees only functions and methods can be, so a file that has no symbols but itself and `impl`
blocks never is. -/
theorem exit_code_is_verdict (d : Disk) (h : parse args = .ok (.analyse a)) :
    ((run false d args).exit = .ok 2 ↔ ∃ c : a.Completion d, c.Exceeds) ∧
    ((run false d args).exit = .ok 0 ↔ ∃ c : a.Completion d, ¬c.Exceeds) ∧
    ((run false d args).exit = .ok 1 ↔ IsEmpty (a.Completion d)) ∧
    ∀ c : a.Completion d, a.mode = .tree → ∀ f ∈ c.files, ∃ t,
      (Disk.source f).root.outline (Disk.source f).path (Disk.source f).path = .ok t ∧
      (∀ n, (Disk.source f).Exceeds a.wantsGraph n ↔
        ∃ l ∈ t.leaves, l.isCallable = true ∧ n < l.complexity) ∧
      ((∀ l ∈ t.leaves, l.kind = .file ∨ l.kind = .impl) →
        ∀ n, ¬(Disk.source f).Exceeds a.wantsGraph n) := by
  have hrun : run false d args = a.run false d := by rw [run, h]; rfl
  rw [hrun]
  refine ⟨⟨?_, ?_⟩, ⟨?_, ?_⟩, ⟨?_, ?_⟩, ?_⟩
  · intro hexit
    obtain ⟨c⟩ := Analysis.nonempty_of_exit_ne_one (by rw [hexit]; simp)
    exact ⟨c, c.exit_eq_two_iff.mp hexit⟩
  · rintro ⟨c, hc⟩
    exact c.exit_eq_two_iff.mpr hc
  · intro hexit
    obtain ⟨c⟩ := Analysis.nonempty_of_exit_ne_one (by rw [hexit]; simp)
    exact ⟨c, c.exit_eq_zero_iff.mp hexit⟩
  · rintro ⟨c, hc⟩
    exact c.exit_eq_zero_iff.mpr hc
  · intro hexit
    exact ⟨fun c => c.exit_ne_one hexit⟩
  · intro hempty
    by_contra hne
    obtain ⟨c⟩ := Analysis.nonempty_of_exit_ne_one hne
    exact hempty.false c
  · intro c hmode f hf
    obtain ⟨t, ht, hexceeds⟩ := c.exists_outline hmode hf
    refine ⟨t, ht, hexceeds, ?_⟩
    intro hkinds n hn
    obtain ⟨l, hl, hcallable, _⟩ := (hexceeds n).mp hn
    rcases hkinds l hl with hkind | hkind
    · simp [SymbolTree.isCallable, hkind] at hcallable
    · simp [SymbolTree.isCallable, hkind] at hcallable

/-- A file that holds an `impl` without methods. -/
def bareImpl : SyntaxTree where
  root := .phrase 0 "source_file" "" "impl U \x7b\x7d" [SymbolTree.implOfU]
  distinct := by decide +kernel

/-- A file with a decision point, a directory with a file that has none, and settings that allow
none. -/
def gated : Disk :=
  ((Disk.workplace.addFile (.ofString "a.rs")
    ⟨.empty, ⟨SymbolTree.threeItems, by decide +kernel⟩, false, none, none⟩).addFile
      (.ofString "lib/u.rs") ⟨.empty, bareImpl, false, none, none⟩).addFile (.ofString "c.yaml")
        ⟨.empty, .empty, false, none,
          some (.ok (.map [(.text "thresholds", .map [(.text "max_complexity", .int 0)])]))⟩

/-- The command that the settings file decides on, unless there is a limit. -/
def gatedRun (mode : Mode) (path : String) (limit : Limit) (settings : String) : Analysis :=
  ⟨mode, path, some settings, none, none, limit, false⟩

theorem outline_bareImpl (path : String) :
    bareImpl.root.outline path path = .ok (.node path .file 0 [.node "U" .impl 0 []]) := by
  rw [Node.outline]
  show ([SymbolTree.implOfU].mapM (Node.symbol? path) >>= _) = _
  rw [List.mapM_cons, SymbolTree.symbol?_implOfU]
  rfl

def bareImplLines : List ShapeLine :=
  [⟨"impl", "impl", [], 0x223f2b81da001089⟩, ⟨"type_identifier", "U", [], 0x122d6d368af3e0b8⟩,
    ⟨"\x7b", "\x7b", [], 0x0c4ef11360afa009⟩, ⟨"\x7d", "\x7d", [], 0x10bf0e5b0c975690⟩,
    ⟨"declaration_list", "", [2, 3], 0x31fe3a9ab4b0d40f⟩,
    ⟨"impl_item", "", [0, 1, 4], 0x9e6a83f82bd9f577⟩, ⟨"source_file", "", [5], 0x912ce0c18ecc0ce6⟩]

/-- The file makes two vertices and an edge. -/
theorem ofFile_bareImpl : ∃ g, Graph.ofFile bareImpl = .ok g ∧ g.textNumbers = [1, 2, 1, 1] := by
  have hl : ShapeLine.allCorrect [] bareImplLines = true := by decide +kernel
  have hroot : bareImpl.root.fingerprint = ⟨0x912ce0c18ecc0ce6⟩ :=
    Node.fingerprint_of_line (i := 6) hl rfl rfl
  have himpl : SymbolTree.implOfU.fingerprint = ⟨0x9e6a83f82bd9f577⟩ :=
    Node.fingerprint_of_line (i := 5) hl rfl rfl
  have hs : Site.ofFile bareImpl.root = .ok [.item SymbolTree.implOfU] := rfl
  have hg := Graph.ofFile_of_visits hroot hs
    (.entered (congrArg some himpl) (by decide) rfl .nil .nil)
  exact ⟨_, hg, rfl⟩

/-- The file of the directory, under the path that a search gives it. -/
def libFile : Path × File :=
  (⟨"", ["..", "w", "lib", "u.rs"]⟩, ⟨.empty, bareImpl, false, none, none⟩)

theorem placeOf_lib : gated.placeOf (.ofString "../w/lib") = .ok ["w", "lib"] := rfl

theorem sources_lib :
    gated.sources (.ofString "../w/lib") [".rs"] Settings.ignoredByDefault = ⟨[libFile], none⟩ := by
  rw [Disk.sources_of_sorted placeOf_lib rfl (by decide +kernel) (by decide +kernel)]
  rfl

/-- The directory can be reported on, in trees and in graphs. -/
theorem exists_printedText_lib (wantsGraph : Bool) : ∃ r text,
    (Disk.source libFile).report wantsGraph = .ok r ∧ Report.printedText [r] = .ok text := by
  cases wantsGraph with
  | false =>
    have hshort : (SymbolTree.node "../w/lib/u.rs" .file 0 [.node "U" .impl 0 []]).Short :=
      SymbolTree.all_isWritable_iff.mp (by decide +kernel)
    refine ⟨⟨"../w/lib/u.rs", some _, none⟩, _, ?_,
      (Report.printedText_of_tree _ _).trans (SymbolTree.render_of_short hshort)⟩
    show (bareImpl.root.outline _ _ >>= _) = _
    rw [outline_bareImpl]
    rfl
  | true =>
    obtain ⟨g, hg, hnumbers⟩ := ofFile_bareImpl
    have hwritable : g.textNumbers.all Text.isWritable = true := by
      rw [hnumbers]
      decide +kernel
    refine ⟨⟨"../w/lib/u.rs", none, some g⟩, ?text, ?report, ?prints⟩
    case prints =>
      rw [Report.printedText_of_graph, Graph.render, Report.withNumbers, if_pos hwritable]
    case report =>
      show (Graph.ofFile bareImpl >>= _) = _
      rw [hg]
      rfl

/-- Both commands come to an end on the directory. -/
theorem exists_completion_lib (mode : Mode) :
    ∃ c : (gatedRun mode "../w/lib" .unset "c.yaml").Completion gated, c.files = [libFile] := by
  have hprepare : ((gatedRun mode "../w/lib" .unset "c.yaml").prepare gated).toOption.map
      (fun p => (p.1.extensions.toOption, p.1.ignored.toOption.map Settings.texts, p.1.wantsJson)) =
        some (some [".rs"], some Settings.ignoredByDefault, false) := by
    cases mode <;> decide +kernel
  obtain ⟨⟨s, level⟩, hs, hread⟩ := Option.map_eq_some_iff.mp hprepare
  simp only [Prod.mk.injEq, Option.map_eq_some_iff] at hread
  obtain ⟨hext, ⟨ignored, hign, htexts⟩, hjson⟩ := hread
  obtain ⟨r, text, hr, htext⟩ := exists_printedText_lib s.wantsGraph
  have hfind : gated.find (.ofString "../w/lib") = .ok (some .dir) := by
    rw [Disk.find, placeOf_lib]
    rfl
  have hanalyses : ([libFile].map Disk.source).mapM (Source.report s.wantsGraph) = .ok [r] := by
    rw [List.map_singleton, List.mapM_cons, hr]
    rfl
  have hfinds : s.sources gated "../w/lib" = .ok ⟨[libFile], none⟩ := by
    rw [Settings.sources, eq_ok_of_toOption hext, eq_ok_of_toOption hign]
    show Except.ok (gated.sources _ _ (Settings.texts ignored)) = _
    rw [htexts]
    exact congrArg Except.ok sources_lib
  have hdelivered : rendered s [r] >>= (gatedRun mode "../w/lib" .unset "c.yaml").deliver gated =
      .ok (text, gated) := by
    rw [rendered, hjson, if_neg Bool.false_ne_true, htext]
    rfl
  exact Analysis.exists_completion (eq_ok_of_toOption hs) ⟨.dir, hfind⟩ hfinds hanalyses hdelivered

theorem exceeds_lib {c : (gatedRun .graph "../w/lib" .unset "c.yaml").Completion gated}
    (hfiles : c.files = [libFile]) : c.Exceeds := by
  obtain ⟨g, hg, hnumbers⟩ := ofFile_bareImpl
  have hlib : libFile ∈ c.files := by rw [hfiles]; exact List.mem_cons_self
  have hcomplexity : g.complexity = 1 := congrArg (·.getD 3 0) hnumbers
  have hlimit : (gated.settingsValue (some "c.yaml")).toOption.map
      (gatedRun .graph "../w/lib" .unset "c.yaml").limitOver = some (some 0) := by decide +kernel
  rw [show gated.settingsValue (some "c.yaml") = .ok c.given from c.reads] at hlimit
  exact ⟨0, Option.some.inj hlimit, libFile, hlib, g, hg, by rw [hcomplexity]; decide⟩

/-- The file with a decision point is above the limit of the settings file; a limit on the command
line goes before that one; and where the settings file is missing there is no verdict. In the
directory the `impl` without methods counts nothing as a symbol, and something in the graph. -/
theorem exit_code_is_verdict_on_gated :
    ((run false gated ["tree", "a.rs", "-c", "c.yaml"]).exit = .ok 2 ∧
      ∃ c : (gatedRun .tree "a.rs" .unset "c.yaml").Completion gated, c.Exceeds) ∧
    ((run false gated ["tree", "a.rs", "-c", "c.yaml", "--max-complexity", "1"]).exit = .ok 0 ∧
      ∃ c : (gatedRun .tree "a.rs" (.number 1) "c.yaml").Completion gated, ¬c.Exceeds) ∧
    ((run false gated ["tree", "a.rs", "-c", "no.yaml"]).exit = .ok 1 ∧
      IsEmpty ((gatedRun .tree "a.rs" .unset "no.yaml").Completion gated)) ∧
    ((run false gated ["tree", "../w/lib", "-c", "c.yaml"]).exit = .ok 0 ∧
      ∃ c : (gatedRun .tree "../w/lib" .unset "c.yaml").Completion gated,
        c.files = [libFile] ∧ ¬c.Exceeds) ∧
    ((run false gated ["graph", "../w/lib", "-c", "c.yaml"]).exit = .ok 2 ∧
      ∃ c : (gatedRun .graph "../w/lib" .unset "c.yaml").Completion gated,
        c.files = [libFile] ∧ c.Exceeds) := by
  refine ⟨?_, ?_, ?_, ?_, ?_⟩
  · have hparse : parse ["tree", "a.rs", "-c", "c.yaml"] =
        .ok (.analyse (gatedRun .tree "a.rs" .unset "c.yaml")) := by decide +kernel
    have hexit : (run false gated ["tree", "a.rs", "-c", "c.yaml"]).exit = .ok 2 :=
      eq_ok_of_toOption (by decide +kernel)
    exact ⟨hexit, (exit_code_is_verdict gated hparse).1.mp hexit⟩
  · have hparse : parse ["tree", "a.rs", "-c", "c.yaml", "--max-complexity", "1"] =
        .ok (.analyse (gatedRun .tree "a.rs" (.number 1) "c.yaml")) := by decide +kernel
    have hexit : (run false gated
        ["tree", "a.rs", "-c", "c.yaml", "--max-complexity", "1"]).exit = .ok 0 :=
      eq_ok_of_toOption (by decide +kernel)
    exact ⟨hexit, (exit_code_is_verdict gated hparse).2.1.mp hexit⟩
  · have hparse : parse ["tree", "a.rs", "-c", "no.yaml"] =
        .ok (.analyse (gatedRun .tree "a.rs" .unset "no.yaml")) := by decide +kernel
    have hexit : (run false gated ["tree", "a.rs", "-c", "no.yaml"]).exit = .ok 1 :=
      eq_ok_of_toOption (by decide +kernel)
    exact ⟨hexit, (exit_code_is_verdict gated hparse).2.2.1.mp hexit⟩
  · have hparse : parse ["tree", "../w/lib", "-c", "c.yaml"] =
        .ok (.analyse (gatedRun .tree "../w/lib" .unset "c.yaml")) := by decide +kernel
    obtain ⟨c, hfiles⟩ := exists_completion_lib .tree
    obtain ⟨_, hzero, _, hsymbols⟩ := exit_code_is_verdict gated hparse
    have hlib : libFile ∈ c.files := by rw [hfiles]; exact List.mem_cons_self
    obtain ⟨t, ht, _, hnever⟩ := hsymbols c rfl libFile hlib
    cases (outline_bareImpl _).symm.trans ht
    have hnot : ¬c.Exceeds := by
      rintro ⟨n, _, f, hf, hexceeds⟩
      rw [hfiles, List.mem_singleton] at hf
      subst hf
      refine hnever ?_ n hexceeds
      rw [SymbolTree.leaves_node (List.cons_ne_nil _ _), List.flatMap_singleton,
        SymbolTree.leaves_of_childless rfl]
      simp [SymbolTree.kind]
    exact ⟨hzero.mpr ⟨c, hnot⟩, c, hfiles, hnot⟩
  · have hparse : parse ["graph", "../w/lib", "-c", "c.yaml"] =
        .ok (.analyse (gatedRun .graph "../w/lib" .unset "c.yaml")) := by decide +kernel
    obtain ⟨c, hfiles⟩ := exists_completion_lib .graph
    have hexceeds := exceeds_lib hfiles
    exact ⟨(exit_code_is_verdict gated hparse).1.mpr ⟨c, hexceeds⟩, c, hfiles, hexceeds⟩

end Command

end RustMetrics
