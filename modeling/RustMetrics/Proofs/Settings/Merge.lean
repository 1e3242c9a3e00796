import RustMetrics.Settings.Basic

/-! Settings laid over one another. What stands at a key afterwards is what was laid there,
or, if nothing was, what stood there before; and the same holds for a key in a part, which is
how all settings are looked up. This needs keys that are single: of a key that a mapping had
twice, the first entry would be found and the last one would count. Tidying a loaded value
makes its keys single, as far as they are texts; a number that equals nothing, not even
itself, can stay there twice. -/

namespace RustMetrics

/-- What stands at a key that something is laid over, or nothing. -/
def Value.laid (base : Option Value) : Option Value → Option Value
  | none => base
  | some v => some (Value.over base v)

theorem Value.over_none (v : Value) : Value.over none v = v := by
  cases v <;> rfl

theorem Value.laid_none (v : Option Value) : Value.laid none v = v := by
  cases v with
  | none => rfl
  | some v => exact congrArg some (Value.over_none v)

/-- A mapping that is laid over something is merged with it or replaces it. -/
theorem Value.over_map (base : Option Value) (changes : Entries) :
    (∃ entries, base = some (.map entries) ∧
      Value.over base (.map changes) = .map (Entries.merge entries changes)) ∨
    Value.over base (.map changes) = .map changes := by
  rcases base with _ | w
  · exact .inr rfl
  · cases w with
    | map entries => exact .inl ⟨entries, rfl, rfl⟩
    | _ => exact .inr rfl

theorem Value.over_eq_scalar_iff {base : Option Value} {v : Value} {s : Scalar} :
    Value.over base v = .scalar s ↔ v = .scalar s := by
  cases v with
  | map changes => rcases Value.over_map base changes with ⟨_, _, h⟩ | h <;> simp [h]
  | _ => rfl

theorem Value.laid_eq_scalar_iff {base changes : Option Value} {s : Scalar} :
    Value.laid base changes = some (.scalar s) ↔
      changes = some (.scalar s) ∨ changes = none ∧ base = some (.scalar s) := by
  cases changes with
  | none => simp [Value.laid]
  | some v => simp [Value.laid, Value.over_eq_scalar_iff]

theorem Value.laid_eq_none_iff {base changes : Option Value} :
    Value.laid base changes = none ↔ changes = none ∧ base = none := by
  cases changes with
  | none => simp [Value.laid]
  | some v => simp [Value.laid]

namespace Entries

variable {part key : String} {k : Scalar} {es base changes : Entries}

def keys (es : Entries) : List Scalar := es.map Prod.fst

/-- A key that no mapping has twice. -/
def Single (k : Scalar) (es : Entries) : Prop := es.keys.count k ≤ 1

theorem get?_cons (k k' : Scalar) (v : Value) (es : Entries) :
    get? ((k, v) :: es) k' = if k' = k then some v else es.get? k' := by
  rw [get?, List.lookup_cons]
  by_cases h : k' = k
  · simp [h]
  · simp [h, beq_eq_false_iff_ne.mpr h, get?]

theorem get?_set (k k' : Scalar) (v : Value) (es : Entries) :
    get? (set k v es) k' = if k' = k then some v else es.get? k' := by
  induction es with
  | nil => rw [set, get?_cons]
  | cons e es ih =>
    obtain ⟨l, w⟩ := e
    rw [set]
    by_cases hl : l = k
    · subst hl
      rw [if_pos rfl, get?_cons, get?_cons]
      split <;> rfl
    · rw [if_neg hl, get?_cons, get?_cons, ih]
      by_cases hk : k' = k
      · subst hk
        simp [Ne.symm hl]
      · simp [hk]

theorem get?_eq_none_of_notMem (h : k ∉ es.keys) : es.get? k = none := by
  induction es with
  | nil => rfl
  | cons e es ih =>
    obtain ⟨l, w⟩ := e
    obtain ⟨hl, hes⟩ := List.ne_and_not_mem_of_not_mem_cons h
    rw [get?_cons, if_neg hl, ih hes]

theorem keys_set (k : Scalar) (v : Value) (es : Entries) :
    keys (set k v es) = if k ∈ es.keys then es.keys else es.keys ++ [k] := by
  induction es with
  | nil => rfl
  | cons e es ih =>
    obtain ⟨l, w⟩ := e
    rw [set]
    by_cases hl : l = k
    · subst hl
      simp [keys]
    · rw [if_neg hl]
      show l :: keys (set k v es) = if k ∈ l :: keys es then l :: keys es else l :: keys es ++ [k]
      rw [ih]
      by_cases hk : k ∈ keys es
      · simp [hk]
      · simp [hk, Ne.symm hl]

theorem Single.append {k' : Scalar} {more : Entries} (h : Single k es)
    (hk : k' = k → k' ∉ es.keys) (hmore : more.keys = es.keys ++ [k']) : Single k more := by
  rw [Single, hmore, List.count_append]
  by_cases hkey : k' = k
  · subst hkey
    rw [List.count_eq_zero.mpr (hk rfl)]
    simp
  · rw [List.count_cons_of_ne hkey, List.count_nil, Nat.add_zero]
    exact h

theorem Single.set {k' : Scalar} {v : Value} (h : Single k es) : Single k (set k' v es) := by
  have hkeys := keys_set k' v es
  by_cases hk : k' ∈ es.keys
  · rw [if_pos hk] at hkeys
    rwa [Single, hkeys]
  · rw [if_neg hk] at hkeys
    exact h.append (fun _ => hk) hkeys

theorem Single.merge (h : Single k base) : Single k (merge base changes) := by
  induction changes generalizing base with
  | nil => rwa [Entries.merge]
  | cons e changes ih =>
    obtain ⟨k', v⟩ := e
    rw [Entries.merge]
    exact ih h.set

theorem Single.tail {e : Scalar × Value} (h : Single k (e :: es)) : Single k es :=
  Nat.le_trans List.count_le_count_cons h

theorem get?_tail {v : Value} (h : Single k ((k, v) :: es)) : es.get? k = none := by
  refine get?_eq_none_of_notMem (List.count_eq_zero.mp ?_)
  have hcount : es.keys.count k + 1 ≤ 1 := by
    rw [← List.count_cons_self]
    exact h
  omega

theorem get?_merge (h : Single k changes) :
    get? (merge base changes) k = Value.laid (base.get? k) (changes.get? k) := by
  induction changes generalizing base with
  | nil => rfl
  | cons e changes ih =>
    obtain ⟨k', v⟩ := e
    rw [Entries.merge, ih h.tail, get?_set, get?_cons]
    by_cases hk : k = k'
    · subst hk
      rw [if_pos rfl, if_pos rfl, get?_tail h]
      rfl
    · rw [if_neg hk, if_neg hk]

/-- What stands at a key of a part. -/
def at? (es : Entries) (part key : String) : Option Value :=
  match es.get? (.text part) with
  | some (.map m) => get? m (.text key)
  | _ => none

/-- A part that is absent or a mapping. -/
def Mapped (part : String) (es : Entries) : Prop :=
  ∀ v, es.get? (.text part) = some v → ∃ m, v = .map m

structure SingleAt (part key : String) (es : Entries) : Prop where
  outer : Single part es
  inner : ∀ m, es.get? (.text part) = some (.map m) → Single key m

theorem at?_merge (h : SingleAt part key changes) (hm : Mapped part changes) :
    at? (merge base changes) part key =
      Value.laid (base.at? part key) (changes.at? part key) := by
  rw [at?, at?, at?, get?_merge h.outer]
  cases hc : changes.get? (.text part) with
  | none => rfl
  | some v =>
    obtain ⟨m, rfl⟩ := hm v hc
    cases hb : base.get? (.text part) with
    | none => exact (Value.laid_none _).symm
    | some w =>
      cases w with
      | map entries => exact get?_merge (h.inner m hc)
      | _ => exact (Value.laid_none _).symm

theorem SingleAt.merge (hb : SingleAt part key base) (hc : SingleAt part key changes) :
    SingleAt part key (merge base changes) := by
  refine ⟨hb.outer.merge, ?_⟩
  intro m hm
  rw [get?_merge hc.outer] at hm
  cases hchange : changes.get? (.text part) with
  | none =>
    rw [hchange] at hm
    exact hb.inner m hm
  | some v =>
    rw [hchange, Value.laid, Option.some.injEq] at hm
    cases v with
    | map c =>
      rcases Value.over_map (base.get? (.text part)) c with ⟨entries, hbase, h⟩ | h
      · rw [h] at hm
        cases hm
        exact (hb.inner entries hbase).merge
      · rw [h] at hm
        cases hm
        exact hc.inner _ hchange
    | _ => cases hm

theorem Mapped.of_merge (hs : Single part changes) (h : Mapped part (merge base changes)) :
    Mapped part changes := by
  intro v hv
  obtain ⟨m, hm⟩ := h (Value.over (base.get? (.text part)) v) (by rw [get?_merge hs, hv]; rfl)
  cases v with
  | map c => exact ⟨c, rfl⟩
  | _ => cases hm

theorem mem_of_get? {v : Value} (h : es.get? k = some v) :
    v ∈ es.map Prod.snd := by
  induction es with
  | nil => cases h
  | cons e es ih =>
    obtain ⟨l, w⟩ := e
    rw [get?_cons] at h
    split at h
    · cases h
      exact List.mem_cons_self
    · exact List.mem_cons_of_mem _ (ih h)

theorem keys_setSame (k : Scalar) (v : Value) (es : Entries) :
    keys (setSame k v es) =
      if es.keys.any (·.isSame k) then es.keys else es.keys ++ [k] := by
  induction es with
  | nil => rfl
  | cons e es ih =>
    obtain ⟨l, w⟩ := e
    rw [setSame]
    show _ = if (l :: keys es).any (·.isSame k) then l :: keys es else l :: keys es ++ [k]
    by_cases hl : l.isSame k = true
    · simp [hl, keys]
    · rw [if_neg hl]
      show l :: keys (setSame k v es) = _
      rw [ih]
      by_cases hk : (keys es).any (·.isSame k) = true
      · simp [hk]
      · simp [hl, hk]

theorem Single.setSame {v : Value} (h : Single key es) : Single key (setSame k v es) := by
  have hkeys := keys_setSame k v es
  by_cases hk : es.keys.any (·.isSame k) = true
  · rw [if_pos hk] at hkeys
    rwa [Single, hkeys]
  · rw [if_neg hk] at hkeys
    refine h.append ?_ hkeys
    rintro rfl hmem
    -- not every scalar is the same as itself, but a text is
    exact hk (List.any_eq_true.mpr ⟨_, hmem, by simp [Scalar.isSame, Scalar.number?]⟩)

theorem mem_setSame {v w : Value} (h : w ∈ (setSame k v es).map Prod.snd) :
    w = v ∨ w ∈ es.map Prod.snd := by
  induction es with
  | nil => exact .inl (List.mem_singleton.mp h)
  | cons e es ih =>
    obtain ⟨l, u⟩ := e
    rw [setSame] at h
    split at h
    · rcases List.mem_cons.mp h with h | h
      · exact .inl h
      · exact .inr (List.mem_cons_of_mem _ h)
    · rcases List.mem_cons.mp h with h | h
      · exact .inr (h ▸ List.mem_cons_self)
      · exact (ih h).imp_right (List.mem_cons_of_mem _)

theorem Single.tidyOnto {done : Entries} (h : Single key done) :
    Single key (tidyOnto done es) := by
  induction es generalizing done with
  | nil => rwa [Entries.tidyOnto]
  | cons e es ih =>
    obtain ⟨k, v⟩ := e
    rw [Entries.tidyOnto]
    exact ih h.setSame

theorem mem_tidyOnto {done : Entries} {w : Value} (h : w ∈ (tidyOnto done es).map Prod.snd) :
    (∃ v, w = Value.tidy v) ∨ w ∈ done.map Prod.snd := by
  induction es generalizing done with
  | nil =>
    rw [tidyOnto] at h
    exact .inr h
  | cons e es ih =>
    obtain ⟨k, v⟩ := e
    rw [tidyOnto] at h
    rcases ih h with htidy | hdone
    · exact .inl htidy
    · exact (mem_setSame hdone).imp_left fun hv => ⟨v, hv⟩

end Entries

theorem Value.exists_tidyOnto {v : Value} {m : Entries} (h : v.tidy = .map m) :
    ∃ es, m = Entries.tidyOnto [] es := by
  cases v with
  | map es =>
    rw [Value.tidy] at h
    cases h
    exact ⟨es, rfl⟩
  | _ =>
    rw [Value.tidy] at h
    all_goals cases h

/-- In a tidy value the keys of parts are single too, since a part is tidy itself. -/
theorem Value.singleAt_of_tidy {v : Value} {es : Entries} (h : v.tidy = .map es)
    (part key : String) : es.SingleAt part key := by
  have hsingle (k : String) (m : Entries) : Entries.Single k (Entries.tidyOnto [] m) :=
    Entries.Single.tidyOnto (Nat.zero_le 1)
  obtain ⟨entries, rfl⟩ := Value.exists_tidyOnto h
  refine ⟨hsingle part entries, ?_⟩
  intro m hm
  rcases Entries.mem_tidyOnto (Entries.mem_of_get? hm) with ⟨w, hw⟩ | hnil
  · obtain ⟨inner, rfl⟩ := Value.exists_tidyOnto hw.symm
    exact hsingle key inner
  · cases hnil

/-- What a settings file says at a key of a part. -/
def Value.at? (v : Value) (part key : String) : Option Value :=
  match v with
  | .map es => Entries.at? es part key
  | _ => none

namespace Settings

variable {s loaded : Settings} {part key : String}

/-- Settings whose mode and limit can be looked up, the limit being a fit one. -/
structure Checked (s : Settings) : Prop where
  mode : ∃ v, s.mode = .ok v
  limit : ∃ v, s.maxComplexity = .ok v ∧ isLimit v = true

/-- A check is passed by settings with a known mode, a known format and a fit limit. -/
theorem check_eq_ok_iff {s' : Settings} :
    check s = .ok s' ↔ s' = s ∧ (∃ v, s.mode = .ok v ∧ isMode v = true) ∧
      (∃ v, s.format = .ok v ∧ isFormat v = true) ∧
      ∃ v, s.maxComplexity = .ok v ∧ isLimit v = true := by
  rw [check]
  cases s.mode with
  | error e => simp [bind, Except.bind]
  | ok mode =>
    by_cases hmode : isMode mode = true
    · cases s.format with
      | error e => simp [bind, Except.bind, hmode]
      | ok format =>
        by_cases hformat : isFormat format = true
        · cases s.maxComplexity with
          | error e => simp [bind, Except.bind, hmode, hformat]
          | ok limit =>
            by_cases hlimit : isLimit limit = true
            · simp [bind, Except.bind, hmode, hformat, hlimit, pure, Except.pure, @eq_comm _ s s']
            · simp [bind, Except.bind, hmode, hformat, hlimit]
        · simp [bind, Except.bind, hmode, hformat]
    · simp [bind, Except.bind, hmode]

theorem check_eq_ok {s' : Settings} (h : check s = .ok s') : s' = s ∧ s.Checked := by
  obtain ⟨rfl, ⟨mode, hmode, _⟩, _, hlimit⟩ := check_eq_ok_iff.mp h
  exact ⟨rfl, ⟨mode, hmode⟩, hlimit⟩

theorem mapped_of_entry {default v : Value} (h : entry (s.part part) key default = .ok v) :
    s.data.Mapped part := by
  intro w hw
  rw [Settings.part, hw, Option.getD_some] at h
  cases w with
  | map m => exact ⟨m, rfl⟩
  | _ => cases h

theorem Checked.mapped_analysis (h : s.Checked) : s.data.Mapped "analysis" := by
  obtain ⟨v, hv⟩ := h.mode
  exact mapped_of_entry hv

theorem Checked.mapped_thresholds (h : s.Checked) : s.data.Mapped "thresholds" := by
  obtain ⟨v, hv, _⟩ := h.limit
  exact mapped_of_entry hv

theorem entry_part (h : s.data.Mapped part) (default : Value) :
    entry (s.part part) key default = .ok ((s.data.at? part key).getD default) := by
  rw [Settings.part, Entries.at?]
  cases hpart : s.data.get? (.text part) with
  | none => rfl
  | some v =>
    obtain ⟨m, rfl⟩ := h v hpart
    rfl

theorem Checked.limit_eq_some_iff (h : s.Checked) {n : Int} :
    s.limit = some n ↔ s.data.at? "thresholds" "max_complexity" = some (.int n) := by
  rw [Settings.limit, maxComplexity, entry_part h.mapped_thresholds]
  cases s.data.at? "thresholds" "max_complexity" with
  | none => simp
  | some v =>
    cases v with
    | scalar x => cases x <;> simp
    | _ => simp

theorem Checked.limit_nonneg (h : s.Checked) {n : Int} (hn : s.limit = some n) : 0 ≤ n := by
  obtain ⟨v, hv, hfit⟩ := h.limit
  rw [maxComplexity, entry_part h.mapped_thresholds, h.limit_eq_some_iff.mp hn] at hv
  cases hv
  simpa [isLimit] using hfit

theorem singleAt_defaults (part key : String) : defaults.data.SingleAt part key :=
  Value.singleAt_of_tidy (show (Value.map defaults.data).tidy = _ from rfl) part key

theorem ofValue_eq_ok {given : Value} (h : ofValue given = .ok s) :
    s.Checked ∧ ∃ es, given = .map es ∧ s.data = Entries.merge defaults.data es := by
  cases given with
  | map es =>
    obtain ⟨rfl, hchecked⟩ := check_eq_ok h
    exact ⟨hchecked, es, rfl, rfl⟩
  | _ => cases h

/-- The sections that change something. -/
def effective (sections : Entries) : Entries := sections.filter fun e => !e.2.isEmpty

theorem ofValue_of_override {sections : Entries} (h : loaded.override sections = .ok s) :
    ofValue (.map (Entries.merge loaded.data (effective sections))) = .ok s := by
  rw [override] at h
  split at h
  · cases h
  · exact h

/-- Sections go before what the file says, and that goes before the defaults. -/
theorem at?_eq_scalar_iff {given loose : Value} {sections : Entries} {x : Scalar}
    (htidy : loose.tidy = given) (hloads : ofValue given = .ok loaded)
    (hoverrides : loaded.override sections = .ok s)
    (hsingle : (effective sections).SingleAt part key)
    (hmapped : (effective sections).Mapped part)
    (hloaded : loaded.data.Mapped part) (hs : s.data.Mapped part) :
    s.data.at? part key = some (.scalar x) ↔
      (effective sections).at? part key = some (.scalar x) ∨
      (effective sections).at? part key = none ∧
        (given.at? part key = some (.scalar x) ∨
          given.at? part key = none ∧ defaults.data.at? part key = some (.scalar x)) := by
  obtain ⟨_, es, rfl, hbelow⟩ := ofValue_eq_ok hloads
  obtain ⟨_, _, hes, hdata⟩ := ofValue_eq_ok (ofValue_of_override hoverrides)
  cases hes
  have hgiven : Entries.SingleAt part key es := Value.singleAt_of_tidy htidy part key
  have hbelowAt : loaded.data.SingleAt part key := by
    rw [hbelow]
    exact (singleAt_defaults part key).merge hgiven
  have hover := hbelowAt.merge hsingle
  rw [hdata] at hs
  rw [hbelow] at hloaded
  rw [hdata, Entries.at?_merge hover (hs.of_merge hover.outer), Entries.at?_merge hsingle hmapped,
    hbelow, Entries.at?_merge hgiven (hloaded.of_merge hgiven.outer)]
  show _ ↔ _ ∨ _ ∧ (Entries.at? es part key = _ ∨ Entries.at? es part key = _ ∧ _)
  simp only [Value.laid_eq_scalar_iff, Value.laid_eq_none_iff]
  -- the defaults are laid under twice, which says nothing new
  grind

end Settings

end RustMetrics
