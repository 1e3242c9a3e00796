import RustMetrics.Proofs.Command.Verdict
import RustMetrics.Proofs.Settings.Override

/-! Flags of a command line over loaded settings. The command, the format and the limit each set
one key that all loaded settings have, since the defaults have it. So a flag that is given
wins, and nothing else moves; laying the result over the defaults once more, as
overriding does, brings nothing back. -/

namespace RustMetrics

/-- Loaded settings come from a tidy value, and are final over the defaults. -/
theorem Disk.merge_defaults_settings {d : Disk} {name : Option String} {loaded : Settings}
    (h : d.settings name = .ok loaded) :
    Settings.check loaded = .ok loaded ∧
      Entries.merge Settings.defaults.data loaded.data = loaded.data := by
  rw [Disk.settings_eq] at h
  obtain ⟨given, hgiven, hloaded⟩ := bind_eq_ok_iff.mp h
  obtain ⟨loose, htidy⟩ := Disk.exists_tidy_of_settingsValue hgiven
  obtain ⟨_, es, rfl, hdata⟩ := Settings.ofValue_eq_ok hloaded
  refine ⟨?_, ?_⟩
  · obtain ⟨rfl, _⟩ := Settings.check_eq_ok_iff.mp hloaded
    exact hloaded
  · rw [hdata]
    exact Settings.layered_defaults.merge_merge (Value.singleAt_of_tidy htidy)

namespace Command.Analysis

open Settings (effective)

variable {a : Analysis} {d : Disk} {loaded : Settings}

/-- The flags that are given. The command always is. -/
def flags (a : Analysis) : List Setting :=
  [⟨"analysis", "mode", .text a.mode.name⟩] ++
    (a.format.toList.map fun f => ⟨"reporting", "format", .text f.name⟩) ++
    match a.limit with
    | .number n => [⟨"thresholds", "max_complexity", .int n⟩]
    | _ => []

theorem effective_eq (h : a.limit ≠ .blank) :
    effective a.sections = a.flags.map Setting.entry := by
  obtain ⟨mode, path, settings, format, output, limit, verbose⟩ := a
  cases limit with
  | blank => exact absurd rfl h
  | _ => cases format <;> rfl

theorem mem_flags {f : Setting} (h : f ∈ a.flags) :
    f = ⟨"analysis", "mode", .text a.mode.name⟩ ∨
    (∃ t, a.format = some t ∧ f = ⟨"reporting", "format", .text t.name⟩) ∨
    ∃ n, a.limit = .number n ∧ f = ⟨"thresholds", "max_complexity", .int n⟩ := by
  rw [flags, List.append_assoc, List.singleton_append, List.mem_cons, List.mem_append,
    List.mem_map] at h
  refine h.imp_right (Or.imp ?_ ?_)
  · rintro ⟨t, ht, rfl⟩
    exact ⟨t, Option.mem_toList.mp ht, rfl⟩
  · intro hf
    split at hf
    · next n hn => exact ⟨n, hn, List.mem_singleton.mp hf⟩
    · cases hf

theorem format_effective (a : Analysis) :
    (effective a.sections).at? "reporting" "format" = a.format.map fun t => .text t.name := by
  obtain ⟨mode, path, settings, format, output, limit, verbose⟩ := a
  cases format <;> cases limit <;> rfl

theorem at?_effective {f : Setting} (h : f ∈ a.flags) :
    (effective a.sections).at? f.part f.key = some (.scalar f.value) := by
  rcases mem_flags h with rfl | ⟨t, ht, rfl⟩ | ⟨n, hn, rfl⟩
  · exact a.mode_effective
  · rw [format_effective, ht]
    rfl
  · rw [limit_effective, hn]
    rfl

theorem isIn_defaults {f : Setting} (h : f ∈ a.flags) : f.IsIn Settings.defaults.data := by
  rcases mem_flags h with rfl | ⟨t, _, rfl⟩ | ⟨n, _, rfl⟩
  · exact ⟨_, rfl, List.mem_cons_self⟩
  · exact ⟨_, rfl, List.mem_cons_self⟩
  · exact ⟨_, rfl, List.mem_cons_self⟩

theorem mapped_of_mem_flags {f : Setting} (hloaded : Settings.check loaded = .ok loaded)
    (h : f ∈ a.flags) : loaded.data.Mapped f.part := by
  obtain ⟨_, ⟨_, hmode, _⟩, ⟨_, hformat, _⟩, _, hmax, _⟩ := Settings.check_eq_ok_iff.mp hloaded
  rcases mem_flags h with rfl | ⟨t, _, rfl⟩ | ⟨n, _, rfl⟩
  · exact Settings.mapped_of_entry hmode
  · exact Settings.mapped_of_entry hformat
  · exact Settings.mapped_of_entry hmax

theorem get?_reservedName (a : Analysis) : a.sections.get? Settings.reservedName = none := rfl

theorem isMode_name (mode : Mode) : Settings.isMode (.text mode.name) = true := by
  cases mode <;> rfl

theorem isFormat_name (t : Format) : Settings.isFormat (.text t.name) = true := by
  cases t <;> rfl

/-- Flags pass the checks, as the loaded settings did. -/
theorem check_merge (hloaded : Settings.check loaded = .ok loaded)
    (hlimit : a.limit = .unset ∨ ∃ n, 0 ≤ n ∧ a.limit = .number n) :
    Settings.check ⟨Entries.merge loaded.data (effective a.sections)⟩ =
      .ok ⟨Entries.merge loaded.data (effective a.sections)⟩ := by
  obtain ⟨_, hmode, hformat, hmax⟩ := Settings.check_eq_ok_iff.mp hloaded
  have hsingle := Value.singleAt_of_tidy a.tidy_effective
  refine Settings.check_eq_ok_iff.mpr ⟨rfl, ?_, ?_, ?_⟩
  · refine Settings.entry_merge (hsingle _ _) (a.mapped_effective _) hmode ?_
    rw [mode_effective]
    rintro v ⟨⟩
    exact ⟨_, rfl, isMode_name a.mode⟩
  · refine Settings.entry_merge (hsingle _ _) (a.mapped_effective _) hformat ?_
    rw [format_effective]
    intro v hv
    obtain ⟨t, _, rfl⟩ := Option.map_eq_some_iff.mp hv
    exact ⟨_, rfl, isFormat_name t⟩
  · refine Settings.entry_merge (hsingle _ _) (a.mapped_effective _) hmax ?_
    rw [limit_effective]
    rcases hlimit with hunset | ⟨n, hn, hnumber⟩
    · rw [hunset]
      rintro v ⟨⟩
    · rw [hnumber]
      rintro v ⟨⟩
      exact ⟨_, rfl, by simpa [Settings.isLimit] using hn⟩

/-- Flags go before loaded settings, and nothing else moves. Overriding succeeds, and what it
gives is the flags laid over the loaded settings: each flag that is given has its value, and
all other keys, known or not, keep their values and places. The run goes by these settings. -/
theorem flags_win (h : d.settings a.settings = .ok loaded)
    (hlimit : a.limit = .unset ∨ ∃ n, 0 ≤ n ∧ a.limit = .number n) :
    ∃ s, a.settingsOn d = .ok s ∧ loaded.override a.sections = .ok s ∧
      s.data = Entries.merge loaded.data (a.flags.map Setting.entry) ∧
      (∀ f ∈ a.flags, s.data.at? f.part f.key = some (.scalar f.value)) ∧
      loaded.data.SameBut (Setting.Sets a.flags) s.data := by
  obtain ⟨hloaded, habsorbs⟩ := Disk.merge_defaults_settings h
  have hsections : effective a.sections = a.flags.map Setting.entry := by
    refine effective_eq ?_
    rcases hlimit with hl | ⟨n, _, hl⟩ <;> simp [hl]
  have hin : ∀ f ∈ a.flags, f.IsIn loaded.data := by
    intro f hf
    exact (isIn_defaults hf).of_merge_eq Settings.layered_defaults.nodup habsorbs
      (mapped_of_mem_flags hloaded hf)
  obtain ⟨hsame, hfinal⟩ := Setting.merge_entries Settings.layered_defaults habsorbs hin
  have hoverride : loaded.override a.sections =
      .ok ⟨Entries.merge loaded.data (effective a.sections)⟩ := by
    rw [Settings.override, if_neg]
    · show Settings.check ⟨Entries.merge _ (Entries.merge _ (effective a.sections))⟩ = _
      rw [hsections, hfinal, ← hsections]
      exact check_merge hloaded hlimit
    · simp [get?_reservedName]
  refine ⟨⟨Entries.merge loaded.data (effective a.sections)⟩, ?_, hoverride, ?_, ?_, ?_⟩
  · rw [settingsOn, h]
    exact hoverride
  · rw [hsections]
  · intro f hf
    show Entries.at? (Entries.merge _ _) _ _ = _
    rw [Entries.at?_merge (Value.singleAt_of_tidy a.tidy_effective _ _) (a.mapped_effective _),
      at?_effective hf]
    rfl
  · rw [hsections]
    exact hsame

/-- Settings with a limit, a key that nothing reads, and a section that nothing knows. -/
def noted : Disk :=
  Disk.workplace.addFile (.ofString "c.yaml")
    ⟨.empty, .empty, false, none,
      some (.ok (.map [(.text "notes", .map [(.text "team", .map [(.text "lead", .text "x")])]),
        (.text "reporting", .map [(.text "width", .int 80)]),
        (.text "thresholds", .map [(.text "max_complexity", .int 9)])]))⟩

/-- `graph . -c c.yaml -f json --max-complexity 3` -/
def notedGraph : Analysis := ⟨.graph, ".", some "c.yaml", some .json, none, .number 3, false⟩

/-- All three flags are given, over a file that sets one of them. -/
theorem flags_win_over_notes : ∃ loaded s, noted.settings (some "c.yaml") = .ok loaded ∧
    loaded.data.keys = [.text "version", .text "analysis", .text "files", .text "thresholds",
      .text "reporting", .text "logging", .text "notes"] ∧
    loaded.limit = some 9 ∧
    notedGraph.settingsOn noted = .ok s ∧ loaded.override notedGraph.sections = .ok s ∧
    s.data.at? "analysis" "mode" = some (.text "graph") ∧
    s.data.at? "reporting" "format" = some (.text "json") ∧
    s.data.at? "thresholds" "max_complexity" = some (.int 3) ∧
    loaded.data.SameBut (Setting.Sets notedGraph.flags) s.data := by
  have hread : (noted.settings (some "c.yaml")).toOption.map (fun s => (s.data.keys, s.limit)) =
      some ([.text "version", .text "analysis", .text "files", .text "thresholds",
        .text "reporting", .text "logging", .text "notes"], some 9) := by decide +kernel
  obtain ⟨loaded, hloaded, hpair⟩ := Option.map_eq_some_iff.mp hread
  obtain ⟨hkeys, hnine⟩ := Prod.mk.inj hpair
  obtain ⟨s, hs, hoverride, _, hflags, hsame⟩ :=
    flags_win (a := notedGraph) (eq_ok_of_toOption hloaded) (.inr ⟨3, by decide, rfl⟩)
  refine ⟨loaded, s, eq_ok_of_toOption hloaded, hkeys, hnine, hs, hoverride, ?_, ?_, ?_, hsame⟩
  · exact hflags ⟨"analysis", "mode", .text "graph"⟩ (by decide)
  · exact hflags ⟨"reporting", "format", .text "json"⟩ (by decide)
  · exact hflags ⟨"thresholds", "max_complexity", .int 3⟩ (by decide)

end Command.Analysis

end RustMetrics
