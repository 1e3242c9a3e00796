import RustMetrics.Proofs.Command.Completion
import RustMetrics.Proofs.Settings.Override
import RustMetrics.Proofs.Settings.Shape

/-! Which settings are accepted. The check is made on the defaults with the given value laid over
them; but each default that is looked at passes the check and is no mapping, so whether
a value is accepted can be told from the value alone: what it has at the three settings must
be fit, and the parts that they stand in must be mappings, if they are there at all. The defaults
themselves are never checked. All settings that come about in any way have a mode, a format and
a limit that are fit. -/

namespace RustMetrics

namespace Entries

variable {part key : String} {es : Entries}

theorem mapped_of_at? {v : Value} (h : es.at? part key = some v) : es.Mapped part := by
  intro w hw
  rw [at?, hw] at h
  cases w with
  | map m => exact ⟨m, rfl⟩
  | _ => cases h

theorem mapped_merge_iff {base : Entries} (hb : base.Mapped part) (hs : es.Single part) :
    Mapped part (merge base es) ↔ es.Mapped part :=
  ⟨Mapped.of_merge hs, hb.merge hs⟩

/-- What a mapping must have to be settings, and what it may leave out. -/
structure Fit (es : Entries) : Prop where
  parts : ∀ part ∈ ["analysis", "reporting", "thresholds"], es.Mapped part
  mode : ∀ v, es.at? "analysis" "mode" = some v → v = .text "tree" ∨ v = .text "graph"
  format : ∀ v, es.at? "reporting" "format" = some v → v = .text "text" ∨ v = .text "json"
  limit : ∀ v, es.at? "thresholds" "max_complexity" = some v → v = .null ∨ ∃ n : Nat, v = .int n

end Entries

/-- No text is a key twice, neither of a mapping nor of one of its parts. -/
def Value.SingleKeyed (v : Value) : Prop :=
  ∀ es : Entries, v = .map es → ∀ part key, es.SingleAt part key

namespace Settings

variable {s : Settings} {part key : String} {es : Entries} {v : Value}

theorem isMode_iff : isMode v = true ↔ v = .text "tree" ∨ v = .text "graph" := by
  cases v with
  | scalar x => cases x <;> simp [isMode]
  | _ => simp [isMode]

theorem isFormat_iff : isFormat v = true ↔ v = .text "text" ∨ v = .text "json" := by
  cases v with
  | scalar x => cases x <;> simp [isFormat]
  | _ => simp [isFormat]

theorem isLimit_iff : isLimit v = true ↔ v = .null ∨ ∃ n : Nat, v = .int n := by
  cases v with
  | scalar x =>
    cases x with
    | int n =>
      have hn : 0 ≤ n ↔ ∃ m : Nat, n = m := ⟨Int.eq_ofNat_of_zero_le, by rintro ⟨m, rfl⟩; omega⟩
      simpa [isLimit] using hn
    | _ => simp [isLimit]
  | _ => simp [isLimit]

/-- A setting passes a test over a default that passes it exactly if what is given passes it, or
nothing is given. -/
theorem exists_entry_iff {default d : Value} {test : Value → Bool} (hs : es.SingleAt part key)
    (hd : defaults.data.at? part key = some d) (hmap : ∀ m, d ≠ .map m) (hfit : test d = true) :
    (∃ v, entry (Settings.part ⟨Entries.merge defaults.data es⟩ part) key default = .ok v ∧
      test v = true) ↔
    es.Mapped part ∧ ∀ v, es.at? part key = some v → test v = true := by
  have hmapped : Entries.Mapped part (Entries.merge defaults.data es) ↔ es.Mapped part :=
    Entries.mapped_merge_iff (Entries.mapped_of_at? hd) hs.outer
  have hvalue (hm : es.Mapped part) :
      (Entries.at? (Entries.merge defaults.data es) part key).getD default =
        (es.at? part key).getD d := by
    rw [Entries.at?_merge hs hm, hd]
    cases es.at? part key with
    | none => rfl
    | some v => exact Value.over_of_ne_map hmap v
  constructor
  · rintro ⟨v, hv, htest⟩
    obtain ⟨hm, rfl⟩ := entry_eq_ok_iff.mp hv
    have hm := hmapped.mp hm
    refine ⟨hm, fun w hw => ?_⟩
    rwa [hvalue hm, hw] at htest
  · rintro ⟨hm, htest⟩
    refine ⟨_, entry_eq_ok_iff.mpr ⟨hmapped.mpr hm, hvalue hm⟩, ?_⟩
    cases hw : es.at? part key with
    | none => exact hfit
    | some w => exact htest w hw

/-- A mapping is accepted exactly if it is fit. -/
theorem exists_ofValue_iff (hs : ∀ part key, es.SingleAt part key) :
    (∃ s, ofValue (.map es) = .ok s) ↔ es.Fit := by
  have haccepted : (∃ s, ofValue (.map es) = .ok s) ↔
      (∃ v, mode ⟨Entries.merge defaults.data es⟩ = .ok v ∧ isMode v = true) ∧
      (∃ v, format ⟨Entries.merge defaults.data es⟩ = .ok v ∧ isFormat v = true) ∧
      ∃ v, maxComplexity ⟨Entries.merge defaults.data es⟩ = .ok v ∧ isLimit v = true := by
    simp only [ofValue, check_eq_ok_iff, exists_eq_left]
  have hmode : (∃ v, mode ⟨Entries.merge defaults.data es⟩ = .ok v ∧ isMode v = true) ↔ _ :=
    exists_entry_iff (hs "analysis" "mode") rfl (by simp) rfl
  have hformat : (∃ v, format ⟨Entries.merge defaults.data es⟩ = .ok v ∧ isFormat v = true) ↔ _ :=
    exists_entry_iff (hs "reporting" "format") rfl (by simp) rfl
  have hlimit :
      (∃ v, maxComplexity ⟨Entries.merge defaults.data es⟩ = .ok v ∧ isLimit v = true) ↔ _ :=
    exists_entry_iff (hs "thresholds" "max_complexity") rfl (by simp) rfl
  rw [haccepted, hmode, hformat, hlimit]
  simp only [isMode_iff, isFormat_iff, isLimit_iff]
  constructor
  · rintro ⟨⟨ha, hmode⟩, ⟨hr, hformat⟩, ht, hlimit⟩
    exact ⟨by simp [ha, hr, ht], hmode, hformat, hlimit⟩
  · intro h
    exact ⟨⟨h.parts _ (by simp), h.mode⟩, ⟨h.parts _ (by simp), h.format⟩, h.parts _ (by simp),
      h.limit⟩

/-- Settings that come about by loading files, giving values and laying sections over settings that
came about before, in any order. -/
inductive Reachable : Settings → Prop
  | loaded {s : Settings} (d : Disk) (path : Option String) :
      d.settings path = .ok s → Reachable s
  | given {s : Settings} (v : Value) : ofValue v = .ok s → Reachable s
  | overridden {s s' : Settings} (sections : Entries) :
      Reachable s → s.override sections = .ok s' → Reachable s'

/-- Settings whose mode, format and limit are fit. -/
structure Valid (s : Settings) : Prop where
  mode : s.mode = .ok (.text "tree") ∨ s.mode = .ok (.text "graph")
  format : s.format = .ok (.text "text") ∨ s.format = .ok (.text "json")
  limit : s.maxComplexity = .ok .null ∨ ∃ n : Nat, s.maxComplexity = .ok (.int n)

theorem valid_of_ofValue (h : ofValue v = .ok s) : s.Valid := by
  cases v with
  | map es =>
    obtain ⟨rfl, ⟨mode, hmode, hm⟩, ⟨format, hformat, hf⟩, limit, hlimit, hl⟩ :=
      check_eq_ok_iff.mp h
    refine ⟨?_, ?_, ?_⟩
    · rcases isMode_iff.mp hm with rfl | rfl
      · exact .inl hmode
      · exact .inr hmode
    · rcases isFormat_iff.mp hf with rfl | rfl
      · exact .inl hformat
      · exact .inr hformat
    · rcases isLimit_iff.mp hl with rfl | ⟨n, rfl⟩
      · exact .inl hlimit
      · exact .inr ⟨n, hlimit⟩
  | _ => cases h

/-- The defaults are not checked when they are loaded, but they would pass. -/
theorem valid_of_settings {d : Disk} {path : Option String} (h : d.settings path = .ok s) :
    s.Valid := by
  rw [Disk.settings_eq] at h
  obtain ⟨given, _, hgiven⟩ := bind_eq_ok_iff.mp h
  exact valid_of_ofValue hgiven

theorem Reachable.valid (h : Reachable s) : s.Valid := by
  induction h with
  | loaded d path h => exact valid_of_settings h
  | given v h => exact valid_of_ofValue h
  | overridden sections _ h _ => exact valid_of_ofValue (ofValue_of_override h)

/-- A value is accepted exactly if it is a mapping that is fit, and all settings that come about
are valid. -/
theorem accepted_if_fit_and_valid_throughout :
    (∀ given : Value, given.SingleKeyed →
      ((∃ s, ofValue given = .ok s) ↔ ∃ es : Entries, given = .map es ∧ es.Fit)) ∧
    ∀ s, Reachable s → Valid s := by
  refine ⟨fun given hs => ?_, fun s h => h.valid⟩
  cases given with
  | map es => simpa using exists_ofValue_iff (hs es rfl)
  | _ => simp [ofValue]

/-- Two settings that are looked at, and a part that is of no use but is not looked at. -/
def mixedEntries : Entries :=
  [("thresholds", .map [("max_complexity", .int 5)]), ("files", .int 5),
    ("analysis", .map [("mode", .text "graph"), ("depth", .null)])]

theorem fit_mixedEntries : mixedEntries.Fit where
  parts := by
    intro part hpart v hv
    simp only [List.mem_cons, List.not_mem_nil, or_false] at hpart
    rcases hpart with rfl | rfl | rfl
    all_goals cases hv
    all_goals exact ⟨_, rfl⟩
  mode := by
    intro v hv
    cases hv
    exact .inr rfl
  format := by
    intro v hv
    cases hv
  limit := by
    intro v hv
    cases hv
    exact .inr ⟨5, rfl⟩

theorem accepted_if_fit_and_valid_throughout_in_mixedEntries :
    (Value.map mixedEntries).SingleKeyed ∧
    (∃ s, ofValue (.map mixedEntries) = .ok s) ∧
    (¬ ∃ s, ofValue (.map [("thresholds", .map [("max_complexity", .bool true)])]) = .ok s) ∧
    ∃ s, Reachable s ∧ s.Valid ∧ s.mode = .ok (.text "graph") ∧ s.format = .ok (.text "json") := by
  obtain ⟨haccepted, hvalid⟩ := accepted_if_fit_and_valid_throughout
  have hsingle {es : Entries} (htidy : (Value.map es).tidy = .map es) :
      (Value.map es).SingleKeyed := by
    rintro _ ⟨⟩
    exact Value.singleAt_of_tidy htidy
  have hmixed := (haccepted (.map mixedEntries) (hsingle rfl)).mpr ⟨_, rfl, fit_mixedEntries⟩
  refine ⟨hsingle rfl, hmixed, ?_, ?_⟩
  · rw [haccepted _ (hsingle rfl)]
    rintro ⟨_, ⟨⟩, hfit⟩
    rcases hfit.limit (.bool true) rfl with h | ⟨n, h⟩ <;> cases h
  · have hloaded : Reachable _ := .given (.map mixedEntries) rfl
    have hs : Reachable _ := .overridden [("reporting", .map [("format", .text "json")])] hloaded rfl
    exact ⟨_, hs, hvalid _ hs, rfl, rfl⟩

end Settings

end RustMetrics
