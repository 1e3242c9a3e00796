import RustMetrics.Proofs.Settings.Absorption

/-! Laws of laying mappings over one another, at any depth. A mapping that is laid over itself gives
itself, and doing the same twice, below or above, is doing it once; the order of keys is
part of this. Where a path of keys leads afterwards follows from where it leads in the two: laying
over is done along the path as it is done at a single key. The one thing that a single key does not
show is a value in the way: where something that is no mapping is laid over a mapping, the paths
that went on below lead nowhere. -/

namespace RustMetrics

namespace Value

/-- What a path of keys leads to. -/
def follow? (v : Value) : List Scalar → Option Value
  | [] => some v
  | k :: path => match v with
    | .map es => (Entries.get? es k).bind fun w => w.follow? path
    | _ => none

/-- Whether something that is no mapping stands on a path before its end. -/
def blocks (v : Value) : List Scalar → Bool
  | [] => false
  | k :: path => match v with
    | .map es => (Entries.get? es k).any fun w => w.blocks path
    | _ => true

theorem over_self {v : Value} (h : ∀ m, v = .map m → Entries.merge m m = m) :
    Value.over (some v) v = v := by
  cases v with
  | map m => exact congrArg Value.map (h m rfl)
  | _ => rfl

theorem over_of_apart {base : Option Value} {v : Value}
    (h : (∀ y, v ≠ .map y) ∨ ∀ x, base ≠ some (.map x)) : Value.over base v = v := by
  cases v with
  | map c =>
    rcases over_map base c with ⟨e, he, _⟩ | hover
    · rcases h with h | h
      · exact absurd rfl (h c)
      · exact absurd he (h e)
    · exact hover
  | _ => rfl

/-- What a path leads to where something is laid over what may have been there. What is laid
there at the end of the path goes over what the path led to before; where the path ends
too early, for want of a key, it leads where it led before. -/
def overAlong (base : Option Value) (v : Value) (path : List Scalar) : Option Value :=
  (v.follow? path).elim (if v.blocks path then none else base.bind (·.follow? path))
    fun w => some (Value.over (base.bind (·.follow? path)) w)

theorem follow?_over_of_replaced {base : Option Value} {v : Value} {path : List Scalar}
    (hbase : base.bind (·.follow? path) = none) (hover : Value.over base v = v) :
    (Value.over base v).follow? path = overAlong base v path := by
  rw [hover, overAlong, hbase, ite_self]
  cases v.follow? path with
  | none => rfl
  | some w => exact congrArg some (over_none w).symm

theorem overAlong_cons (e c : Entries) (k : Scalar) (path : List Scalar) :
    overAlong (some (.map e)) (.map c) (k :: path) =
      (c.get? k).elim ((e.get? k).bind (·.follow? path))
        fun w => overAlong (e.get? k) w path := by
  cases hw : c.get? k with
  | none => simp [overAlong, follow?, blocks, hw]
  | some w => simp [overAlong, follow?, blocks, hw]

end Value

namespace Entries

variable {k : Scalar} {m es a b : Entries}

/-- No key twice, neither in the mapping nor in one that it holds. -/
inductive Keyed : Entries → Prop
  | mk {es : Entries} : es.keys.Nodup → (∀ m, .map m ∈ es.map Prod.snd → Keyed m) → Keyed es

theorem Keyed.nodup (h : Keyed es) : es.keys.Nodup := by
  cases h
  assumption

theorem Keyed.part (h : Keyed es) (hm : es.get? k = some (.map m)) : Keyed m := by
  cases h with
  | mk _ hparts => exact hparts m (mem_of_get? hm)

theorem Keyed.merge_self (h : Keyed es) : merge es es = es := by
  induction h with
  | mk hn _ ih =>
    refine (merge_eq_self_iff hn).mpr ⟨List.prefix_rfl, hn, fun k v hv => ⟨v, hv, ?_⟩⟩
    exact Value.over_self fun m hm => ih m (hm ▸ mem_of_get? hv)

theorem Keyed.merge_merge_left (ha : Keyed a) (hb : Keyed b) :
    merge a (merge a b) = merge a b := by
  induction ha generalizing b with
  | mk hn hparts ih =>
    refine merge_merge_of_values hn (fun k _ => single_of_nodup hb.nodup k) ?_ ?_
    · intro k v hv
      exact Value.over_self fun m hm => (hparts m (hm ▸ mem_of_get? hv)).merge_self
    · intro k v w hv hw
      cases v with
      | map m =>
        cases w with
        | map c => exact congrArg Value.map (ih m (mem_of_get? hv) (hb.part hw))
        | _ => rfl
      | _ => exact Value.over_of_ne_map (by simp) _

theorem mem_keys_merge (hb : b.keys.Nodup) :
    k ∈ keys (merge a b) ↔ k ∈ a.keys ∨ k ∈ b.keys := by
  rw [keys_merge hb, List.mem_append, List.mem_filter]
  by_cases hk : k ∈ a.keys <;> simp [hk]

theorem keys_merge_merge (hb : b.keys.Nodup) :
    keys (merge (merge a b) b) = keys (merge a b) := by
  have hold : b.keys.filter (· ∉ keys (merge a b)) = [] := by
    refine List.filter_eq_nil_iff.mpr fun k hk => ?_
    simpa using (mem_keys_merge hb).mpr (.inr hk)
  rw [keys_merge hb, hold, List.append_nil]

theorem Keyed.merge_merge_right (ha : Keyed a) (hb : Keyed b) :
    merge (merge a b) b = merge a b := by
  -- the induction is on what is laid over, since only there mappings meet mappings
  induction hb generalizing a with
  | @mk b hn hparts ih =>
    refine eq_of_get?_eq (keys_merge_merge hn) (nodup_merge (nodup_merge ha.nodup)) ?_
    intro k _
    rw [get?_merge (single_of_nodup hn k), get?_merge (single_of_nodup hn k)]
    cases hw : b.get? k with
    | none => rfl
    | some w =>
      refine congrArg some ?_
      show Value.over (some (Value.over (a.get? k) w)) w = Value.over (a.get? k) w
      cases w with
      | map c =>
        have hc := mem_of_get? hw
        rcases Value.over_map (a.get? k) c with ⟨e, he, hover⟩ | hover
        · rw [hover]
          exact congrArg Value.map (ih c hc (ha.part he))
        · rw [hover]
          exact congrArg Value.map (hparts c hc).merge_self
      | _ => rfl

/-- Laying over is done along a path as it is done at a key. -/
theorem follow?_over (base : Option Value) (v : Value) (hv : ∀ m, v = .map m → Keyed m)
    (path : List Scalar) : (Value.over base v).follow? path = Value.overAlong base v path := by
  induction path generalizing base v with
  | nil => cases base <;> rfl
  | cons k path ih =>
    cases v with
    | map c =>
      have hc := hv c rfl
      rcases base with _ | w
      · exact Value.follow?_over_of_replaced rfl rfl
      cases w with
      | map e =>
        show (get? (merge e c) k).bind (·.follow? path) = _
        rw [get?_merge (single_of_nodup hc.nodup k), Value.overAlong_cons]
        cases hw : get? c k with
        | none => rfl
        | some w => exact ih (get? e k) w fun m hm => hc.part (hm ▸ hw)
      | _ => exact Value.follow?_over_of_replaced rfl rfl
    | _ => rfl

/-- Laying one mapping over another absorbs on both sides, and a mapping laid over itself stays as
it is, the order of keys included. A path leads to what the upper mapping has there if this
is no mapping or there is none below it, to the two mappings laid over one another if there
are two, and where the upper one has nothing, to what the lower one has; unless something
that is no mapping was laid in the way. -/
theorem merge_absorbs_on_both_sides (ha : Keyed a) (hb : Keyed b) :
    merge a (merge a b) = merge a b ∧ merge (merge a b) b = merge a b ∧ merge a a = a ∧
    ∀ path,
      (∀ v, (Value.map b).follow? path = some v →
        ((∀ y, v ≠ .map y) ∨ ∀ x, (Value.map a).follow? path ≠ some (.map x)) →
        (Value.map (merge a b)).follow? path = some v) ∧
      (∀ x y, (Value.map a).follow? path = some (.map x) →
        (Value.map b).follow? path = some (.map y) →
        (Value.map (merge a b)).follow? path = some (.map (merge x y))) ∧
      ((Value.map b).follow? path = none →
        (Value.map (merge a b)).follow? path =
          if (Value.map b).blocks path then none else (Value.map a).follow? path) := by
  refine ⟨ha.merge_merge_left hb, ha.merge_merge_right hb, ha.merge_self, fun path => ?_⟩
  have hpath : (Value.map (merge a b)).follow? path =
      Value.overAlong (some (.map a)) (.map b) path :=
    follow?_over (some (.map a)) (.map b) (fun m hm => Value.map.inj hm ▸ hb) path
  rw [hpath, Value.overAlong, Option.bind_some]
  refine ⟨?_, ?_, ?_⟩
  · intro v hv hapart
    rw [hv, Option.elim_some, Value.over_of_apart hapart]
  · intro x y hx hy
    rw [hx, hy]
    rfl
  · intro hnone
    rw [hnone, Option.elim_none]

/-- A mapping under a number, a number under a mapping, two mappings, and keys that only one
side has. -/
def sample : Entries :=
  [("report", .map [("lines", .int 1), ("colour", .map [("text", .text "red")])]), ("depth", .int 3)]

def sampleChanges : Entries :=
  [("name", .text "n"), ("depth", .map [("least", .int 7)]),
    ("report", .map [("colour", .int 5), ("links", .map [("shown", .bool true)])])]

theorem keyed_sample : sample.Keyed := by
  refine .mk (by decide) fun m hm => ?_
  obtain rfl : m = _ := by simpa [sample] using hm
  refine .mk (by decide) fun m hm => ?_
  obtain rfl : m = _ := by simpa using hm
  exact .mk (by decide) (by simp)

theorem keyed_sampleChanges : sampleChanges.Keyed := by
  refine .mk (by decide) fun m hm => ?_
  obtain rfl | rfl : m = _ ∨ m = _ := by simpa [sampleChanges] using hm
  · exact .mk (by decide) (by simp)
  · refine .mk (by decide) fun m hm => ?_
    obtain rfl : m = _ := by simpa using hm
    exact .mk (by decide) (by simp)

theorem merge_absorbs_on_both_sides_in_sample :
    sample.Keyed ∧ sampleChanges.Keyed ∧
    merge sample sampleChanges =
      ([("report", .map [("lines", .int 1), ("colour", .int 5),
          ("links", .map [("shown", .bool true)])]),
        ("depth", .map [("least", .int 7)]), ("name", .text "n")] : Entries) ∧
    merge sample (merge sample sampleChanges) = merge sample sampleChanges ∧
    merge (merge sample sampleChanges) sampleChanges = merge sample sampleChanges ∧
    (Value.map sample).follow? ["report", "colour", "text"] = some (.text "red") ∧
    (Value.map sampleChanges).follow? ["report", "colour", "text"] = none ∧
    (Value.map sampleChanges).blocks ["report", "colour", "text"] = true ∧
    (Value.map (merge sample sampleChanges)).follow? ["report", "colour", "text"] = none ∧
    (Value.map (merge sample sampleChanges)).follow? ["report", "lines"] = some (.int 1) := by
  obtain ⟨hleft, hright, _, hpath⟩ := merge_absorbs_on_both_sides keyed_sample keyed_sampleChanges
  have blocked := (hpath ["report", "colour", "text"]).2.2 rfl
  have kept := (hpath ["report", "lines"]).2.2 rfl
  exact ⟨keyed_sample, keyed_sampleChanges, rfl, hleft, hright, rfl, rfl, rfl, blocked, kept⟩

end Entries

end RustMetrics
