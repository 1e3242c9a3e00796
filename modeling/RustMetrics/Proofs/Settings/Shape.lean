import RustMetrics.Proofs.Except
import RustMetrics.Proofs.Settings.Merge
import RustMetrics.Survey

/-! Settings of a wrong shape. Loading checks the values of three settings, and the parts that
they stand in are looked up on the way: one that is no mapping fails there, and not as a
fault of the settings. What names the files and the level of the log is not looked at
by loading. It can be read exactly if it has the shape that its reader goes through, so
settings that were accepted can still end every survey. -/

namespace RustMetrics

namespace Value

/-- Texts, also halved ones, and bytes have a lower case. -/
inductive HasCase : Value → Prop
  | text (s : String) : HasCase (.text s)
  | halved (cs : Text.Codes) : HasCase (.scalar (.halved cs))
  | bytes (data : List UInt8) : HasCase (.scalar (.bytes data))

/-- A value that can be gone through, and all that is met is of one sort. -/
def All (P : Value → Prop) (v : Value) : Prop :=
  ∃ members, v.members? = some members ∧ ∀ m ∈ members, P m

end Value

namespace Settings

variable {s : Settings} {part key : String} {default v : Value} {e : Failure}

theorem entry_eq_ok_iff :
    entry (s.part part) key default = .ok v ↔
      s.data.Mapped part ∧ (s.data.at? part key).getD default = v := by
  constructor
  · intro h
    have hm := mapped_of_entry h
    rw [entry_part hm] at h
    exact ⟨hm, Except.ok.inj h⟩
  · rintro ⟨hm, rfl⟩
    exact entry_part hm default

/-- A part that is no mapping cannot be looked into. -/
theorem entry_eq_error (h : entry (s.part part) key default = .error e) :
    ∃ w, s.data.get? (.text part) = some w ∧ (∀ m, w ≠ .map m) ∧ e = .lacks w "get" := by
  rw [Settings.part] at h
  cases hpart : s.data.get? (.text part) with
  | none =>
    rw [hpart] at h
    cases h
  | some w =>
    rw [hpart, Option.getD_some] at h
    refine ⟨w, rfl, ?_⟩
    cases w with
    | map m => cases h
    | _ =>
      cases h
      exact ⟨by simp, rfl⟩

theorem exists_lowered_iff : (∃ x, lowered v = .ok x) ↔ v.HasCase := by
  constructor
  · rintro ⟨x, hx⟩
    unfold lowered at hx
    split at hx
    · exact .text _
    · exact .halved _
    · exact .bytes _
    · cases hx
  · rintro (s | cs | data)
    · exact ⟨_, rfl⟩
    · exact ⟨_, rfl⟩
    · exact ⟨_, rfl⟩

theorem lowered_eq_error (h : lowered v = .error e) : e = .lacks v "lower" := by
  unfold lowered at h
  split at h
  all_goals cases h
  rfl

theorem exists_joined_iff {members set : List Value} :
    (∃ x, members.foldlM joined set = .ok x) ↔ ∀ m ∈ members, m.unhashable? = none := by
  induction members generalizing set with
  | nil => exact ⟨fun _ m hm => absurd hm List.not_mem_nil, fun _ => ⟨set, rfl⟩⟩
  | cons m members ih =>
    rw [List.foldlM_cons, joined]
    cases hm : m.unhashable? with
    | some w => simp [bind, Except.bind, hm]
    | none =>
      show (∃ x, members.foldlM joined _ = .ok x) ↔ _
      rw [ih, List.forall_mem_cons]
      exact (and_iff_right hm).symm

theorem joined_eq_error {members set : List Value} (h : members.foldlM joined set = .error e) :
    ∃ w, e = .unhashable w := by
  induction members generalizing set with
  | nil => cases h
  | cons m members ih =>
    rw [List.foldlM_cons, joined] at h
    cases hm : m.unhashable? with
    | some w =>
      rw [hm] at h
      cases h
      exact ⟨w, rfl⟩
    | none =>
      rw [hm] at h
      exact ih h

/-- What stands at a key of a part, by default something else. -/
def valueAt (s : Settings) (part key : String) (default : Value) : Value :=
  (s.data.at? part key).getD default

/-- Goes through the members of a setting. -/
def readMembers {α : Type} (s : Settings) (part key : String) (default : Value)
    (reader : List Value → Except Failure α) : Except Failure α :=
  entry (s.part part) key default >>= fun v =>
    match v.members? with
    | none => .error (.notIterable v)
    | some members => reader members

theorem extensions_eq (s : Settings) :
    s.extensions = s.readMembers "files" "extensions" (.list [.text ".rs"]) fun members =>
      (members.mapM lowered).map fun found => (found.filterMap id).eraseDups := rfl

theorem ignored_eq (s : Settings) :
    s.ignored = s.readMembers "files" "ignored_dirs" (.list []) fun members =>
      members.foldlM joined [] := rfl

section Members

variable {α : Type} {reader : List Value → Except Failure α}

theorem exists_readMembers_iff :
    (∃ x, s.readMembers part key default reader = .ok x) ↔ s.data.Mapped part ∧
      ∃ members, (s.valueAt part key default).members? = some members ∧
        ∃ x, reader members = .ok x := by
  constructor
  · rintro ⟨x, hx⟩
    obtain ⟨v, hv, hx⟩ := bind_eq_ok_iff.mp hx
    obtain ⟨hm, rfl⟩ := entry_eq_ok_iff.mp hv
    refine ⟨hm, ?_⟩
    split at hx
    · cases hx
    · next members hmembers => exact ⟨members, hmembers, x, hx⟩
  · rintro ⟨hm, members, hmembers, x, hx⟩
    rw [valueAt] at hmembers
    refine ⟨x, ?_⟩
    rw [readMembers, entry_part hm]
    show (match ((s.data.at? part key).getD default).members? with
      | none => _
      | some members => reader members) = _
    rw [hmembers]
    exact hx

theorem readMembers_eq_error (h : s.readMembers part key default reader = .error e) :
    (∃ w member, e = .lacks w member) ∨ (∃ w, e = .notIterable w) ∨
      ∃ members, reader members = .error e := by
  rw [readMembers] at h
  cases hv : entry (s.part part) key default with
  | error e' =>
    rw [hv] at h
    cases h
    obtain ⟨w, _, _, he⟩ := entry_eq_error hv
    exact .inl ⟨w, _, he⟩
  | ok v =>
    rw [hv] at h
    simp only [bind, Except.bind] at h
    split at h
    · cases h
      exact .inr (.inl ⟨v, rfl⟩)
    · next members _ => exact .inr (.inr ⟨members, h⟩)

end Members

theorem exists_extensions_iff :
    (∃ x, s.extensions = .ok x) ↔ s.data.Mapped "files" ∧
      (s.valueAt "files" "extensions" (.list [.text ".rs"])).All Value.HasCase := by
  rw [extensions_eq, exists_readMembers_iff]
  refine and_congr_right fun _ => exists_congr fun members => and_congr_right fun _ => ?_
  simp only [map_eq_ok_iff, ← exists_lowered_iff, ← exists_mapM_eq_ok_iff]
  exact ⟨fun ⟨_, found, h, _⟩ => ⟨found, h⟩, fun ⟨found, h⟩ => ⟨_, found, h, rfl⟩⟩

theorem exists_ignored_iff :
    (∃ x, s.ignored = .ok x) ↔ s.data.Mapped "files" ∧
      (s.valueAt "files" "ignored_dirs" (.list [])).All fun m => m.unhashable? = none := by
  rw [ignored_eq, exists_readMembers_iff]
  exact and_congr_right fun _ => exists_congr fun members => and_congr_right fun _ =>
    exists_joined_iff

theorem exists_logLevel_iff :
    (∃ x, s.logLevel = .ok x) ↔ s.data.Mapped "logging" ∧
      (s.valueAt "logging" "level" (.text "WARNING")).isWritable = true := by
  constructor
  · rintro ⟨x, hx⟩
    obtain ⟨v, hv, hx⟩ := bind_eq_ok_iff.mp hx
    obtain ⟨hm, rfl⟩ := entry_eq_ok_iff.mp hv
    refine ⟨hm, ?_⟩
    split at hx
    · assumption
    · cases hx
  · rintro ⟨hm, hw⟩
    rw [valueAt] at hw
    refine ⟨Text.upper ((s.data.at? "logging" "level").getD (.text "WARNING")).plain, ?_⟩
    refine bind_eq_ok_iff.mpr ⟨_, entry_part hm _, ?_⟩
    rw [if_pos hw]
    rfl

/-- A setting that cannot be read is told by what its reader needed, not as a fault of the
settings. -/
theorem reading_ne_settings (h : s.extensions = .error e ∨ s.ignored = .error e ∨
    s.logLevel = .error e) (fault : SettingsFault) : e ≠ .settings fault := by
  rcases h with h | h | h
  · rw [extensions_eq] at h
    rcases readMembers_eq_error h with ⟨w, member, rfl⟩ | ⟨w, rfl⟩ | ⟨members, hr⟩
    · simp
    · simp
    · cases hl : members.mapM lowered with
      | error e' =>
        rw [hl] at hr
        cases hr
        obtain ⟨m, _, hm⟩ := exists_error_of_mapM hl
        rw [lowered_eq_error hm]
        simp
      | ok found =>
        rw [hl] at hr
        cases hr
  · rw [ignored_eq] at h
    rcases readMembers_eq_error h with ⟨w, member, rfl⟩ | ⟨w, rfl⟩ | ⟨members, hr⟩
    · simp
    · simp
    · obtain ⟨w, rfl⟩ := joined_eq_error hr
      simp
  · rw [logLevel] at h
    cases hv : entry (s.part "logging") "level" (.text "WARNING") with
    | error e' =>
      rw [hv] at h
      cases h
      obtain ⟨w, _, _, rfl⟩ := entry_eq_error hv
      simp
    | ok v =>
      rw [hv] at h
      simp only [bind, Except.bind] at h
      split at h
      · cases h
      · cases h
        simp

/-- How a check can fail without finding a fault: a part is no mapping, or the value to be refused
is too long to be shown. -/
inductive Misread (s : Settings) : Failure → Prop
  | part {part : String} {w : Value} : part ∈ ["analysis", "reporting", "thresholds"] →
      s.data.get? (.text part) = some w → (∀ m, w ≠ .map m) → Misread s (.lacks w "get")
  | value {v : Value} : v.isWritable = false →
      s.mode = .ok v ∨ s.format = .ok v ∨ s.maxComplexity = .ok v → Misread s .tooManyDigits

theorem Misread.of_entry {default : Value} (hpart : part ∈ ["analysis", "reporting", "thresholds"])
    (h : entry (s.part part) key default = .error e) : s.Misread e := by
  obtain ⟨w, hw, hmap, rfl⟩ := entry_eq_error h
  exact .part hpart hw hmap

theorem refuse_cases (fault : Value → SettingsFault)
    (h : s.mode = .ok v ∨ s.format = .ok v ∨ s.maxComplexity = .ok v) :
    (∃ f, refuse fault v = .settings f) ∨ s.Misread (refuse fault v) := by
  rw [refuse]
  split
  · exact .inl ⟨_, rfl⟩
  · next hw => exact .inr (.value (by simpa using hw) h)

theorem check_eq_error (h : check s = .error e) : (∃ fault, e = .settings fault) ∨ s.Misread e := by
  rw [check] at h
  cases hmode : s.mode with
  | error e' =>
    rw [hmode] at h
    cases h
    exact .inr (.of_entry (by simp) hmode)
  | ok mode =>
    simp only [hmode, bind, Except.bind] at h
    split at h
    · cases h
      exact refuse_cases _ (.inl hmode)
    cases hformat : s.format with
    | error e' =>
      rw [hformat] at h
      cases h
      exact .inr (.of_entry (by simp) hformat)
    | ok format =>
      simp only [hformat] at h
      split at h
      · cases h
        exact refuse_cases _ (.inr (.inl hformat))
      cases hlimit : s.maxComplexity with
      | error e' =>
        rw [hlimit] at h
        cases h
        exact .inr (.of_entry (by simp) hlimit)
      | ok limit =>
        simp only [hlimit] at h
        split at h
        · cases h
          exact refuse_cases _ (.inr (.inr hlimit))
        · cases h

theorem exists_sources_iff (s : Settings) (d : Disk) (path : String) :
    (∃ found, s.sources d path = .ok found) ↔
      (∃ x, s.extensions = .ok x) ∧ ∃ x, s.ignored = .ok x := by
  constructor
  · rintro ⟨found, h⟩
    obtain ⟨extensions, he, h⟩ := bind_eq_ok_iff.mp h
    obtain ⟨ignored, hi, _⟩ := bind_eq_ok_iff.mp h
    exact ⟨⟨extensions, he⟩, ignored, hi⟩
  · rintro ⟨⟨extensions, he⟩, ignored, hi⟩
    exact ⟨_, bind_eq_ok_iff.mpr ⟨extensions, he, bind_eq_ok_iff.mpr ⟨ignored, hi, rfl⟩⟩⟩

/-- Which shapes of settings are found out when, for any value. A value that is not accepted is
refused with a fault, unless one of the three parts that are checked is no mapping or the value
to be refused cannot be shown. Accepted settings have a mode, a format and a limit, but the
rest can be read exactly if it has the shape for it; if not, the failure is not a fault
of the settings. The source files of a path can be listed exactly if extensions and
ignored names can be read. -/
theorem shapes_found_out (given : Value) :
    (∀ e, ofValue given = .error e → (∃ fault, e = .settings fault) ∨
      ∃ es, given = .map es ∧ Misread ⟨Entries.merge defaults.data es⟩ e) ∧
    ∀ s, ofValue given = .ok s →
      (∃ v, s.mode = .ok v ∧ isMode v = true) ∧ (∃ v, s.format = .ok v ∧ isFormat v = true) ∧
      (∃ v, s.maxComplexity = .ok v ∧ isLimit v = true) ∧
      ((∃ x, s.extensions = .ok x) ↔ s.data.Mapped "files" ∧
        (s.valueAt "files" "extensions" (.list [.text ".rs"])).All Value.HasCase) ∧
      ((∃ x, s.ignored = .ok x) ↔ s.data.Mapped "files" ∧
        (s.valueAt "files" "ignored_dirs" (.list [])).All fun m => m.unhashable? = none) ∧
      ((∃ x, s.logLevel = .ok x) ↔ s.data.Mapped "logging" ∧
        (s.valueAt "logging" "level" (.text "WARNING")).isWritable = true) ∧
      (∀ e, s.extensions = .error e ∨ s.ignored = .error e ∨ s.logLevel = .error e →
        ∀ fault, e ≠ .settings fault) ∧
      ∀ d path, (∃ found, s.sources d path = .ok found) ↔
        (∃ x, s.extensions = .ok x) ∧ ∃ x, s.ignored = .ok x := by
  constructor
  · intro e h
    cases given with
    | map es => exact (check_eq_error h).imp_right fun hm => ⟨es, rfl, hm⟩
    | _ =>
      cases h
      exact .inl ⟨_, rfl⟩
  · intro s h
    cases given with
    | map es =>
      obtain ⟨rfl, hmode, hformat, hlimit⟩ := check_eq_ok_iff.mp h
      exact ⟨hmode, hformat, hlimit, exists_extensions_iff, exists_ignored_iff,
        exists_logLevel_iff, fun _ => reading_ne_settings, exists_sources_iff _⟩
    | _ => cases h

/-- A part that is null fails while it is checked, and not as a fault; a list of files that is
a number is accepted, and then no path can be surveyed. -/
theorem wrong_shapes_pass :
    ofValue (.map [("analysis", .null)]) = .error (.lacks .null "get") ∧
    ∃ s, ofValue (.map [("files", .int 5)]) = .ok s ∧
      s.extensions = .error (.lacks (.int 5) "get") ∧
      s.ignored = .error (.lacks (.int 5) "get") ∧
      ∀ d path, s.survey d path = ⟨[], some (none, .lacks (.int 5) "get")⟩ :=
  ⟨rfl, _, rfl, rfl, rfl, fun _ _ => rfl⟩

end Settings

end RustMetrics
