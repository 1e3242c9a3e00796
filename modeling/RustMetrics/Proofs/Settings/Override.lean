import Mathlib.Data.List.Forall2
import RustMetrics.Proofs.Settings.Absorption

/-! Single settings laid over others. One setting is a key of a part with its value. Where the key
is there already, its value is replaced in its place, and all else stays as and where it was;
and settings that are final over the defaults stay so. This holds for one setting, and
so for any number of them in turn. -/

namespace RustMetrics

namespace Entries

variable {k : Scalar} {es es' es'' : Entries} {R : Scalar → Value → Value → Prop}

/-- The same keys in the same places, with values that are the same or related. -/
def AlikeBut (R : Scalar → Value → Value → Prop) : Entries → Entries → Prop :=
  List.Forall₂ fun e e' => e'.1 = e.1 ∧ (e'.2 = e.2 ∨ R e.1 e.2 e'.2)

theorem AlikeBut.refl (es : Entries) : AlikeBut R es es :=
  List.forall₂_same.mpr fun _ _ => ⟨rfl, .inl rfl⟩

theorem AlikeBut.mono {S : Scalar → Value → Value → Prop} (hR : ∀ k v w, R k v w → S k v w)
    (h : AlikeBut R es es') : AlikeBut S es es' :=
  List.Forall₂.imp (fun _ _ he => ⟨he.1, he.2.imp_right (hR _ _ _)⟩) h

theorem AlikeBut.trans (hR : ∀ k u v w, R k u v → R k v w → R k u w) (h : AlikeBut R es es')
    (h' : AlikeBut R es' es'') : AlikeBut R es es'' := by
  induction h generalizing es'' with
  | nil =>
    cases h'
    exact .nil
  | @cons e e' _ _ he _ ih =>
    cases h' with
    | @cons _ e'' _ _ he' hrest' =>
      refine .cons ⟨he'.1.trans he.1, ?_⟩ (ih hrest')
      rw [he.1] at he'
      rcases he.2, he'.2 with ⟨hv | hv, hv' | hv'⟩
      · exact .inl (hv'.trans hv)
      · exact .inr (hv ▸ hv')
      · exact .inr (hv' ▸ hv)
      · exact .inr (hR _ _ _ _ hv hv')

theorem alikeBut_set {v w : Value} (hget : es.get? k = some w) (hR : R k w v) :
    AlikeBut R es (set k v es) := by
  induction es with
  | nil => cases hget
  | cons e es ih =>
    obtain ⟨l, u⟩ := e
    rw [get?_cons] at hget
    rw [set]
    by_cases hl : l = k
    · subst hl
      rw [if_pos rfl, Option.some.injEq] at hget
      rw [if_pos rfl]
      exact .cons ⟨rfl, .inr (hget ▸ hR)⟩ (AlikeBut.refl es)
    · rw [if_neg (Ne.symm hl)] at hget
      rw [if_neg hl]
      exact .cons ⟨rfl, .inl rfl⟩ (ih hget)

/-- The same keys in the same places, at every depth, and the same values, but for some keys of
some parts. -/
def SameBut (changed : Scalar → Scalar → Prop) : Entries → Entries → Prop :=
  AlikeBut fun part v v' => ∃ m m', v = .map m ∧ v' = .map m' ∧
    AlikeBut (fun key _ _ => changed part key) m m'

variable {P Q : Scalar → Scalar → Prop}

theorem SameBut.mono (hPQ : ∀ part key, P part key → Q part key) (h : SameBut P es es') :
    SameBut Q es es' := by
  refine AlikeBut.mono ?_ h
  rintro part v w ⟨m, m', hv, hw, hm⟩
  exact ⟨m, m', hv, hw, hm.mono fun key _ _ => hPQ part key⟩

theorem SameBut.trans (h : SameBut P es es') (h' : SameBut P es' es'') : SameBut P es es'' := by
  refine AlikeBut.trans ?_ h h'
  rintro part u v w ⟨m, m', hu, hv, hm⟩ ⟨n, n', hv', hw, hn⟩
  cases hv.symm.trans hv'
  exact ⟨m, n', hu, hw, hm.trans (fun _ _ _ _ hk _ => hk) hn⟩

theorem Mapped.merge {part : String} {base changes : Entries} (hb : Mapped part base)
    (hs : Single part changes) (hc : Mapped part changes) : Mapped part (merge base changes) := by
  intro v hv
  rw [get?_merge hs] at hv
  cases hchange : changes.get? (.text part) with
  | none =>
    rw [hchange] at hv
    exact hb v hv
  | some w =>
    obtain ⟨m, rfl⟩ := hc w hchange
    rw [hchange, Value.laid, Option.some.injEq] at hv
    rcases Value.over_map (base.get? (.text part)) m with ⟨entries, _, h⟩ | h
    · exact ⟨_, hv.symm.trans h⟩
    · exact ⟨_, hv.symm.trans h⟩

end Entries

/-- A key of a part, and what it is set to. -/
structure Setting where
  part : String
  key : String
  value : Scalar
  deriving DecidableEq, Repr

namespace Setting

variable {f g : Setting} {settings : List Setting} {es base : Entries}

/-- The setting as a part with one key. -/
def entry (f : Setting) : Scalar × Value := (.text f.part, .map [(.text f.key, .scalar f.value)])

/-- The key is there, with whatever value. -/
def IsIn (f : Setting) (es : Entries) : Prop :=
  ∃ m : Entries, es.get? (.text f.part) = some (.map m) ∧ .text f.key ∈ m.keys

/-- Settings that absorb some others have their keys, unless a part is no mapping. -/
theorem IsIn.of_merge_eq (h : f.IsIn base) (hb : base.keys.Nodup)
    (habsorbs : Entries.merge base es = es) (hm : es.Mapped f.part) : f.IsIn es := by
  obtain ⟨m, hget, hkey⟩ := h
  obtain ⟨_, _, hfinal⟩ := (Entries.merge_eq_self_iff hb).mp habsorbs
  obtain ⟨w, hw, hover⟩ := hfinal _ _ hget
  obtain ⟨n, rfl⟩ := hm w hw
  have hmn : Entries.merge m n = n := Value.map.inj hover
  exact ⟨n, hw, (hmn ▸ Entries.keys_prefix_merge m n).subset hkey⟩

/-- A setting replaces one value. -/
theorem merge_entry {m : Entries} (f : Setting) (h : es.get? (.text f.part) = some (.map m))
    (rest : Entries) : Entries.merge es (f.entry :: rest) = Entries.merge
      (es.set (.text f.part) (.map (m.set (.text f.key) (.scalar f.value)))) rest := by
  rw [entry, Entries.merge, h]
  rfl

theorem IsIn.set {m : Entries} (h : g.IsIn es) (hf : es.get? (.text f.part) = some (.map m)) :
    g.IsIn (es.set (.text f.part) (.map (m.set (.text f.key) (.scalar f.value)))) := by
  obtain ⟨n, hn, hkey⟩ := h
  rw [IsIn, Entries.get?_set]
  by_cases hpart : Scalar.text g.part = .text f.part
  · rw [hpart, hf] at hn
    cases hn
    refine ⟨_, if_pos hpart, ?_⟩
    rw [Entries.keys_set]
    split
    · exact hkey
    · exact List.mem_append_left _ hkey
  · exact ⟨n, (if_neg hpart).trans hn, hkey⟩

/-- The keys that are set. -/
def Sets (settings : List Setting) (part key : Scalar) : Prop :=
  ∃ f ∈ settings, part = .text f.part ∧ key = .text f.key

theorem sameBut_set {m : Entries} (h : f.IsIn es) (hf : es.get? (.text f.part) = some (.map m)) :
    Entries.SameBut (Sets [f]) es
      (es.set (.text f.part) (.map (m.set (.text f.key) (.scalar f.value)))) := by
  obtain ⟨n, hn, hkey⟩ := h
  cases hf.symm.trans hn
  obtain ⟨w, hw⟩ := Entries.exists_get?_of_mem hkey
  refine Entries.alikeBut_set hf ⟨m, _, rfl, rfl, ?_⟩
  exact Entries.alikeBut_set hw ⟨f, List.mem_singleton_self f, rfl, rfl⟩

theorem merge_set_eq_self {m : Entries} (hb : base.Layered)
    (habsorbs : Entries.merge base es = es) (hf : es.get? (.text f.part) = some (.map m)) :
    Entries.merge base (es.set (.text f.part) (.map (m.set (.text f.key) (.scalar f.value)))) =
      es.set (.text f.part) (.map (m.set (.text f.key) (.scalar f.value))) := by
  refine Entries.merge_set_eq_self hb.nodup habsorbs fun a ha => ?_
  cases a with
  | map b =>
    obtain ⟨_, _, hfinal⟩ := (Entries.merge_eq_self_iff hb.nodup).mp habsorbs
    obtain ⟨w, hw, hover⟩ := hfinal _ _ ha
    cases hf.symm.trans hw
    have hbm : Entries.merge b m = m := Value.map.inj hover
    have hflat := hb.parts b (Entries.mem_of_get? ha)
    exact congrArg Value.map (Entries.merge_set_eq_self hflat.nodup hbm fun _ _ => rfl)
  | _ => exact Value.over_of_ne_map (by simp) _

/-- One setting after another: nothing else moves, and the values stay final. -/
theorem merge_entries (hb : base.Layered) (habsorbs : Entries.merge base es = es)
    (hin : ∀ f ∈ settings, f.IsIn es) :
    Entries.SameBut (Sets settings) es (Entries.merge es (settings.map entry)) ∧
      Entries.merge base (Entries.merge es (settings.map entry)) =
        Entries.merge es (settings.map entry) := by
  induction settings generalizing es with
  | nil => exact ⟨Entries.AlikeBut.refl es, habsorbs⟩
  | cons f settings ih =>
    obtain ⟨m, hget, _⟩ := hin f List.mem_cons_self
    rw [List.map_cons, f.merge_entry hget]
    obtain ⟨hsame, hfinal⟩ := ih (merge_set_eq_self hb habsorbs hget)
      fun g hg => (hin g (List.mem_cons_of_mem f hg)).set hget
    refine ⟨?_, hfinal⟩
    refine ((sameBut_set (hin f List.mem_cons_self) hget).mono ?_).trans (hsame.mono ?_)
    · rintro part key ⟨g, hg, h⟩
      exact ⟨g, List.mem_singleton.mp hg ▸ List.mem_cons_self, h⟩
    · rintro part key ⟨g, hg, h⟩
      exact ⟨g, List.mem_cons_of_mem f hg, h⟩

end Setting

/-- A setting that passes a test still does after others are laid over, if those that go there
pass it too. -/
theorem Settings.entry_merge {s : Settings} {part key : String} {default : Value}
    {test : Value → Bool} {changes : Entries} (hsingle : changes.SingleAt part key)
    (hmapped : changes.Mapped part)
    (h : ∃ v, entry (s.part part) key default = .ok v ∧ test v = true)
    (hc : ∀ v, changes.at? part key = some v → ∃ x, v = .scalar x ∧ test v = true) :
    ∃ v, entry (Settings.part ⟨Entries.merge s.data changes⟩ part) key default = .ok v ∧
      test v = true := by
  obtain ⟨v, hv, htest⟩ := h
  have hbase := mapped_of_entry hv
  rw [entry_part hbase] at hv
  rw [entry_part (hbase.merge hsingle.outer hmapped), Entries.at?_merge hsingle hmapped]
  cases hchange : changes.at? part key with
  | none => exact ⟨v, hv, htest⟩
  | some w =>
    obtain ⟨x, rfl, hw⟩ := hc w hchange
    exact ⟨_, rfl, hw⟩

end RustMetrics
