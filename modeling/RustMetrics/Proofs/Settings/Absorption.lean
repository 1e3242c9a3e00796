import Mathlib.Data.List.Nodup
import RustMetrics.Proofs.Settings.Merge

/-! Laying settings over the defaults twice. Settings in force have the keys of the defaults
first, in their order, and each value there is one that the default does not change any
more; so laying them over the defaults again gives them back. This is kept when a value is
replaced by another that its default does not change. It would not be kept by a mapping that
replaces something else: the default of that key would come back into it. -/

namespace RustMetrics

theorem Value.over_of_ne_map {a : Value} (h : ∀ m, a ≠ .map m) (v : Value) :
    Value.over (some a) v = v := by
  cases v with
  | map changes =>
    rcases Value.over_map (some a) changes with ⟨entries, ha, _⟩ | hover
    · exact absurd (Option.some.inj ha) (h entries)
    · exact hover
  | _ => rfl

namespace Entries

variable {k : Scalar} {es base changes : Entries}

theorem exists_get?_of_mem (h : k ∈ es.keys) : ∃ v, es.get? k = some v := by
  induction es with
  | nil => cases h
  | cons e es ih =>
    obtain ⟨l, v⟩ := e
    rw [get?_cons]
    by_cases hl : k = l
    · exact ⟨v, if_pos hl⟩
    · rw [if_neg hl]
      exact ih ((List.mem_cons.mp h).resolve_left hl)

theorem mem_keys_of_get? {v : Value} (h : es.get? k = some v) : k ∈ es.keys := by
  by_contra hk
  rw [get?_eq_none_of_notMem hk] at h
  cases h

theorem eq_of_get?_eq {es' : Entries} (hkeys : es.keys = es'.keys) (hn : es.keys.Nodup)
    (hget : ∀ k ∈ es.keys, es.get? k = es'.get? k) : es = es' := by
  induction es generalizing es' with
  | nil => exact (List.map_eq_nil_iff.mp hkeys.symm).symm
  | cons e es ih =>
    obtain ⟨k, v⟩ := e
    cases es' with
    | nil => cases hkeys
    | cons e' es' =>
      obtain ⟨k', v'⟩ := e'
      obtain ⟨hk, hes⟩ := List.nodup_cons.mp hn
      injection hkeys with hkk hrest
      cases hkk
      have hv := hget k List.mem_cons_self
      rw [get?_cons, get?_cons, if_pos rfl, if_pos rfl, Option.some.injEq] at hv
      subst hv
      rw [ih hrest hes]
      intro l hl
      have hlk : l ≠ k := fun h => hk (h ▸ hl)
      have hget := hget l (List.mem_cons_of_mem _ hl)
      rwa [get?_cons, get?_cons, if_neg hlk, if_neg hlk] at hget

theorem keys_prefix_merge (base changes : Entries) : base.keys <+: keys (merge base changes) := by
  induction changes generalizing base with
  | nil =>
    rewrite [Entries.merge]
    exact List.prefix_rfl
  | cons e changes ih =>
    obtain ⟨k, v⟩ := e
    rw [Entries.merge]
    refine List.IsPrefix.trans ?_ (ih _)
    rw [keys_set]
    split
    · exact List.prefix_rfl
    · exact List.prefix_append _ _

theorem single_of_nodup (h : es.keys.Nodup) (k : Scalar) : Single k es :=
  List.nodup_iff_count_le_one.mp h k

theorem nodup_merge (h : base.keys.Nodup) : (keys (merge base changes)).Nodup := by
  exact List.nodup_iff_count_le_one.mpr fun k => (single_of_nodup h k).merge

theorem keys_merge (h : changes.keys.Nodup) :
    keys (merge base changes) = base.keys ++ changes.keys.filter (· ∉ base.keys) := by
  induction changes generalizing base with
  | nil =>
    rw [Entries.merge]
    exact (List.append_nil _).symm
  | cons e changes ih =>
    obtain ⟨k, v⟩ := e
    obtain ⟨hk, hrest⟩ := List.nodup_cons.mp h
    rw [Entries.merge, ih hrest, keys_set]
    show _ = base.keys ++ (k :: keys changes).filter (· ∉ base.keys)
    by_cases hb : k ∈ base.keys
    · rw [if_pos hb, List.filter_cons_of_neg (by simpa using hb)]
    · have hrest : (keys changes).filter (· ∉ base.keys ++ [k]) =
          (keys changes).filter (· ∉ base.keys) := by
        refine List.filter_congr fun l hl => ?_
        have hlk : l ≠ k := fun h => hk (h ▸ hl)
        simp [hlk]
      rw [if_neg hb, List.filter_cons_of_pos (by simpa using hb), List.append_assoc, hrest]
      rfl

/-- What is laid over a mapping without changing its own entries: it has the keys of the mapping
first, and at each of them a value that is final. -/
theorem merge_eq_self_iff (hb : base.keys.Nodup) :
    merge base es = es ↔ base.keys <+: es.keys ∧ es.keys.Nodup ∧
      ∀ k v, base.get? k = some v → ∃ w, es.get? k = some w ∧ Value.over (some v) w = w := by
  constructor
  · intro h
    have hfirst : base.keys <+: es.keys := h ▸ keys_prefix_merge base es
    have hn : es.keys.Nodup := h ▸ nodup_merge hb
    refine ⟨hfirst, hn, fun k v hv => ?_⟩
    obtain ⟨w, hw⟩ := exists_get?_of_mem (hfirst.subset (mem_keys_of_get? hv))
    have hget : get? (merge base es) k = _ := get?_merge (single_of_nodup hn k)
    rw [h, hv, hw, Value.laid, Option.some.injEq] at hget
    exact ⟨w, hw, hget.symm⟩
  · rintro ⟨⟨rest, hrest⟩, hn, hfinal⟩
    have hkeys : keys (merge base es) = es.keys := by
      have hapart := (List.nodup_append.mp (hrest ▸ hn)).2.2
      have hold : base.keys.filter (· ∉ base.keys) = [] := by simp
      have hnew : rest.filter (· ∉ base.keys) = rest := by
        refine List.filter_eq_self.mpr fun k hk => ?_
        simpa using fun h => hapart k h k hk rfl
      rw [keys_merge hn, ← hrest, List.filter_append, hold, hnew, List.nil_append]
    refine eq_of_get?_eq hkeys (hkeys ▸ hn) fun k _ => ?_
    rw [get?_merge (single_of_nodup hn k)]
    cases hv : base.get? k with
    | none => exact Value.laid_none _
    | some v =>
      obtain ⟨w, hw, hover⟩ := hfinal k v hv
      rw [hw, Value.laid, hover]

/-- A final value can be replaced by another one. -/
theorem merge_set_eq_self {v : Value} (hb : base.keys.Nodup) (h : merge base es = es)
    (hv : ∀ a, base.get? k = some a → Value.over (some a) v = v) :
    merge base (set k v es) = set k v es := by
  obtain ⟨hfirst, hn, hfinal⟩ := (merge_eq_self_iff hb).mp h
  refine (merge_eq_self_iff hb).mpr ⟨?_, ?_, ?_⟩
  · rw [keys_set]
    split
    · exact hfirst
    · exact hfirst.trans (List.prefix_append _ _)
  · exact List.nodup_iff_count_le_one.mpr fun l => (single_of_nodup hn l).set
  · intro l a ha
    rw [get?_set]
    by_cases hl : l = k
    · subst hl
      exact ⟨v, if_pos rfl, hv a ha⟩
    · rw [if_neg hl]
      exact hfinal l a ha

/-- Laying something over a mapping gives final values if doing it with each value does. -/
theorem merge_merge_of_values (hb : base.keys.Nodup) (hs : ∀ k ∈ base.keys, Single k changes)
    (hself : ∀ k v, base.get? k = some v → Value.over (some v) v = v)
    (hover : ∀ k v w, base.get? k = some v → changes.get? k = some w →
      Value.over (some v) (Value.over (some v) w) = Value.over (some v) w) :
    merge base (merge base changes) = merge base changes := by
  refine (merge_eq_self_iff hb).mpr ⟨keys_prefix_merge base changes, nodup_merge hb, ?_⟩
  intro k v hv
  rw [get?_merge (hs k (mem_keys_of_get? hv)), hv]
  cases hw : changes.get? k with
  | none => exact ⟨v, rfl, hself k v hv⟩
  | some w => exact ⟨_, rfl, hover k v w hv hw⟩

/-- Different texts as keys, and no mapping inside. -/
structure Flat (es : Entries) : Prop where
  nodup : es.keys.Nodup
  texts : ∀ k ∈ es.keys, ∃ s, k = .text s
  values : ∀ v ∈ es.map Prod.snd, ∀ m, v ≠ .map m

theorem Flat.merge_merge (h : Flat base) (hs : ∀ key : String, Single key changes) :
    merge base (merge base changes) = merge base changes := by
  have final : ∀ k v, base.get? k = some v → ∀ w, Value.over (some v) w = w := by
    intro k v hv
    exact Value.over_of_ne_map (h.values v (mem_of_get? hv))
  refine merge_merge_of_values h.nodup ?_ (fun k v hv => final k v hv v)
    fun k v w hv _ => final k v hv _
  intro k hk
  obtain ⟨key, rfl⟩ := h.texts k hk
  exact hs key

/-- Different texts as keys, and mappings that are flat: the form of the defaults. -/
structure Layered (es : Entries) : Prop where
  nodup : es.keys.Nodup
  texts : ∀ k ∈ es.keys, ∃ s, k = .text s
  parts : ∀ m, .map m ∈ es.map Prod.snd → Flat m

theorem Layered.merge_merge (h : Layered base) (hs : ∀ part key, SingleAt part key changes) :
    merge base (merge base changes) = merge base changes := by
  refine merge_merge_of_values h.nodup ?_ ?_ ?_
  · intro k hk
    obtain ⟨part, rfl⟩ := h.texts k hk
    exact (hs part part).outer
  · intro k v hv
    cases v with
    | map m =>
      have hm : merge m (merge m []) = merge m [] :=
        (h.parts m (mem_of_get? hv)).merge_merge fun _ => Nat.zero_le 1
      exact congrArg Value.map hm
    | _ => rfl
  · intro k v w hv hw
    cases v with
    | map m =>
      cases w with
      | map c =>
        obtain ⟨part, rfl⟩ := h.texts k (mem_keys_of_get? hv)
        exact congrArg Value.map
          ((h.parts m (mem_of_get? hv)).merge_merge fun key => (hs part key).inner c hw)
      | _ => rfl
    | _ => exact Value.over_of_ne_map (by simp) _

end Entries

theorem Settings.layered_defaults : defaults.data.Layered := by
  refine ⟨by decide, by simp [defaults, Entries.keys], ?_⟩
  intro m hm
  simp only [defaults, List.map_cons, List.map_nil, List.mem_cons, Value.map.injEq,
    List.not_mem_nil, reduceCtorEq, false_or, or_false] at hm
  rcases hm with rfl | rfl | rfl | rfl | rfl
  all_goals exact ⟨by decide, by simp [Entries.keys], by simp⟩

end RustMetrics
