import Std.Data.HashMap
import RustMetrics.Fingerprint.Subject

/-! Fingerprints that are computed once. A walk asks for the fingerprint of nearly
every node, and each is made from those of all nodes below, so they are kept.

A query works on a stack. A subject is put on it twice: first alone, then ready,
with its parts above it. When it comes up ready its parts are in the cache, and
its fingerprint is made from what is looked up there. Parts that are equal
records are put on the stack each time and computed once. Whatever the cache held
before, nothing that is looked up is missing (`query_isSome`). -/

namespace RustMetrics

structure Cache where
  entries : Std.HashMap Subject.Key Fingerprint

namespace Cache

def empty : Cache := ⟨∅⟩

def get? (cache : Cache) (s : Subject) : Option Fingerprint := cache.entries[s.key]?

def insert (cache : Cache) (s : Subject) (f : Fingerprint) : Cache :=
  ⟨cache.entries.insert s.key f⟩

/-- The fingerprint of a subject from those of its parts, if the cache has them all. -/
def assemble (cache : Cache) (s : Subject) : Option Fingerprint :=
  (s.parts.mapM cache.get?).map (.combine s.kind s.text)

/-- A query under way. A subject on the stack is ready if its parts were put above it. -/
structure Query where
  cache : Cache
  stack : List (Subject × Bool)

namespace Query

inductive Step where
  | done (cache : Cache)
  | next (q : Query)
  /-- A part of a ready subject is not in the cache. -/
  | missing

/-- Takes the first subject off the stack. -/
def step : Query → Step
  | ⟨cache, []⟩ => .done cache
  | ⟨cache, (s, ready) :: rest⟩ =>
    match cache.get? s with
    | some _ => .next ⟨cache, rest⟩
    | none =>
      if ready then
        match cache.assemble s with
        | none => .missing
        | some f => .next ⟨cache.insert s f, rest⟩
      else .next ⟨cache, s.parts.map (·, false) ++ (s, true) :: rest⟩

/-- The steps that an entry of the stack can still take. -/
def weightOf : Subject × Bool → Nat
  | (_, true) => 1
  | (s, false) => 2 * s.size

def weight (stack : List (Subject × Bool)) : Nat := (stack.map weightOf).foldr (· + ·) 0

theorem weightOf_pos (e : Subject × Bool) : 0 < weightOf e := by
  obtain ⟨s, _ | _⟩ := e
  · have := s.size_pos
    simp only [weightOf]
    omega
  · exact Nat.one_pos

theorem weight_cons (e : Subject × Bool) (rest : List (Subject × Bool)) :
    weight (e :: rest) = weightOf e + weight rest := rfl

theorem weight_parts (ps : List Subject) (rest : List (Subject × Bool)) :
    weight (ps.map (·, false) ++ rest) = 2 * Subject.sizes ps + weight rest := by
  induction ps with
  | nil => simp
  | cons p ps ih =>
    rw [List.map_cons, List.cons_append, weight_cons, ih, Subject.sizes_cons, weightOf]
    omega

/-- All that a step can do. -/
inductive Moves (q : Query) : Step → Prop
  | done : q.stack = [] → Moves q (.done q.cache)
  | known {s ready rest f} :
      q.stack = (s, ready) :: rest → q.cache.get? s = some f → Moves q (.next ⟨q.cache, rest⟩)
  | opened {s rest} :
      q.stack = (s, false) :: rest → q.cache.get? s = none →
      Moves q (.next ⟨q.cache, s.parts.map (·, false) ++ (s, true) :: rest⟩)
  | assembled {s rest f} :
      q.stack = (s, true) :: rest → q.cache.get? s = none → q.cache.assemble s = some f →
      Moves q (.next ⟨q.cache.insert s f, rest⟩)
  | missing {s rest} :
      q.stack = (s, true) :: rest → q.cache.assemble s = none → Moves q .missing

theorem step_moves (q : Query) : q.Moves q.step := by
  obtain ⟨cache, _ | ⟨⟨s, ready⟩, rest⟩⟩ := q
  · exact .done rfl
  · simp only [step]
    split
    · next f hf => exact .known rfl hf
    · next hf =>
      cases ready with
      | false => exact .opened rfl hf
      | true =>
        simp only [if_true]
        split
        · next ha => exact .missing rfl ha
        · next f ha => exact .assembled rfl hf ha

theorem weight_step_lt {q u : Query} (h : q.step = .next u) : weight u.stack < weight q.stack := by
  have hm := step_moves q
  rw [h] at hm
  cases hm with
  | @known s ready rest f hs _ =>
    have hpos := weightOf_pos (s, ready)
    show weight rest < weight q.stack
    rw [hs, weight_cons]
    omega
  | @opened s rest hs _ =>
    have hlt := s.sizes_parts_lt
    rw [hs, weight_parts, weight_cons, weight_cons, weightOf, weightOf]
    omega
  | @assembled s rest f hs _ _ =>
    show weight rest < weight q.stack
    rw [hs, weight_cons, weightOf]
    omega

/-- The cache after all that is on the stack was taken off; nothing if a part was missing. -/
def run (q : Query) : Option Cache :=
  match _h : q.step with
  | .done cache => some cache
  | .next q => run q
  | .missing => none
termination_by weight q.stack
decreasing_by exact weight_step_lt _h

end Query

/-- The fingerprint of a subject and the cache after it was asked for. Nothing comes
out if something that is looked up on the way is missing. -/
def query (cache : Cache) (s : Subject) : Option (Fingerprint × Cache) :=
  match cache.get? s with
  | some f => some (f, cache)
  | none => do
    let cache ← Query.run ⟨cache, [(s, false)]⟩
    let f ← cache.get? s
    return (f, cache)

/-- There is an entry under a key. -/
def Has (cache : Cache) (k : Subject.Key) : Prop := k ∈ cache.entries

theorem has_key_iff {cache : Cache} {s : Subject} :
    cache.Has s.key ↔ ∃ f, cache.get? s = some f := by
  rw [Has, get?, ← Std.HashMap.isSome_getElem?_iff_mem, Option.isSome_iff_exists]

theorem has_insert {cache : Cache} {s : Subject} {f : Fingerprint} {k : Subject.Key} :
    (cache.insert s f).Has k ↔ s.key = k ∨ cache.Has k := by
  rw [Has, insert, Std.HashMap.mem_insert, beq_iff_eq, Has]

theorem mapM_get?_isSome {cache : Cache} {subjects : List Subject}
    (h : ∀ s ∈ subjects, cache.Has s.key) : ∃ fs, subjects.mapM cache.get? = some fs := by
  induction subjects with
  | nil => exact ⟨[], rfl⟩
  | cons s subjects ih =>
    obtain ⟨f, hf⟩ := has_key_iff.mp (h s List.mem_cons_self)
    obtain ⟨fs, hfs⟩ := ih fun t ht => h t (List.mem_cons_of_mem _ ht)
    exact ⟨f :: fs, by rw [List.mapM_cons, hf, hfs]; rfl⟩

theorem exists_assemble {cache : Cache} {s : Subject} (h : ∀ p ∈ s.parts, cache.Has p.key) :
    ∃ f, cache.assemble s = some f := by
  obtain ⟨fs, hfs⟩ := mapM_get?_isSome h
  exact ⟨_, by rw [assemble, hfs]; rfl⟩

namespace Query

/-- The parts of a ready subject are known when it comes up. A key is known if it is among
those given, or if its subject stands further up: once a subject is taken off for good, the
cache has it. -/
def Supplied (known : Subject.Key → Prop) : List (Subject × Bool) → Prop
  | [] => True
  | (s, ready) :: rest =>
    (ready = true → ∀ p ∈ s.parts, known p.key) ∧ Supplied (fun k => s.key = k ∨ known k) rest

theorem Supplied.mono {known known' : Subject.Key → Prop} {stack : List (Subject × Bool)}
    (h : Supplied known stack) (hk : ∀ k, known k → known' k) : Supplied known' stack := by
  induction stack generalizing known known' with
  | nil => trivial
  | cons e rest ih =>
    obtain ⟨s, ready⟩ := e
    refine ⟨fun hr p hp => hk _ (h.1 hr p hp), ih h.2 ?_⟩
    intro k hkn
    exact hkn.imp_right (hk k)

theorem supplied_parts {known : Subject.Key → Prop} {ps : List Subject}
    {rest : List (Subject × Bool)}
    (h : Supplied (fun k => (∃ p ∈ ps, p.key = k) ∨ known k) rest) :
    Supplied known (ps.map (·, false) ++ rest) := by
  induction ps generalizing known with
  | nil => exact h.mono fun k hk => hk.elim (fun ⟨_, hp, _⟩ => nomatch hp) id
  | cons p ps ih =>
    refine ⟨fun hr => Bool.noConfusion hr, ih (h.mono ?_)⟩
    rintro k (⟨q, hq, rfl⟩ | hk)
    · rcases List.mem_cons.mp hq with rfl | hq
      · exact .inr (.inl rfl)
      · exact .inl ⟨q, hq, rfl⟩
    · exact .inr (.inr hk)

/-- One step keeps ready subjects supplied. Of what the cache has or the stack holds, it
loses nothing. -/
theorem Supplied.next {q u : Query} (h : Supplied q.cache.Has q.stack) (hs : q.step = .next u) :
    Supplied u.cache.Has u.stack ∧ (∀ k, q.cache.Has k → u.cache.Has k) ∧
      ∀ e ∈ q.stack, u.cache.Has e.1.key ∨ ∃ e' ∈ u.stack, e'.1.key = e.1.key := by
  have hm := step_moves q
  rw [hs] at hm
  cases hm with
  | @known s ready rest f hst hf =>
    have hk : q.cache.Has s.key := has_key_iff.mpr ⟨f, hf⟩
    rw [hst] at h ⊢
    refine ⟨h.2.mono fun k hk' => hk'.elim (fun he => he ▸ hk) id, fun k => id, ?_⟩
    intro e he
    rcases List.mem_cons.mp he with rfl | he
    · exact .inl hk
    · exact .inr ⟨e, he, rfl⟩
  | @opened s rest hst _ =>
    rw [hst] at h ⊢
    refine ⟨supplied_parts ⟨fun _ p hp => .inl ⟨p, hp, rfl⟩, ?_⟩, fun k => id, ?_⟩
    · exact h.2.mono fun k hk => hk.imp_right .inr
    · intro e he
      rcases List.mem_cons.mp he with rfl | he
      · exact .inr ⟨(s, true), List.mem_append_right _ List.mem_cons_self, rfl⟩
      · exact .inr ⟨e, List.mem_append_right _ (List.mem_cons_of_mem _ he), rfl⟩
  | @assembled s rest f hst _ _ =>
    rw [hst] at h ⊢
    refine ⟨h.2.mono fun k => has_insert.mpr, fun k hk => has_insert.mpr (.inr hk), ?_⟩
    intro e he
    rcases List.mem_cons.mp he with rfl | he
    · exact .inl (has_insert.mpr (.inl rfl))
    · exact .inr ⟨e, he, rfl⟩

theorem Supplied.not_missing {q : Query} (h : Supplied q.cache.Has q.stack) :
    q.step ≠ .missing := by
  intro hs
  have hm := step_moves q
  rw [hs] at hm
  cases hm with
  | missing hst ha =>
    rw [hst] at h
    obtain ⟨f, hf⟩ := exists_assemble (h.1 rfl)
    rw [hf] at ha
    cases ha

/-- A run ends with a cache that has all it had before and all that was on the stack. -/
theorem Supplied.run {q : Query} (h : Supplied q.cache.Has q.stack) :
    ∃ cache, q.run = some cache ∧ (∀ k, q.cache.Has k → cache.Has k) ∧
      ∀ e ∈ q.stack, cache.Has e.1.key := by
  fun_induction Query.run q with
  | case1 q cache hs =>
    have hm := step_moves q
    rw [hs] at hm
    cases hm with
    | done hst =>
      refine ⟨q.cache, rfl, fun k => id, ?_⟩
      rw [hst]
      intro e he
      cases he
  | case2 q u hs ih =>
    obtain ⟨hu, hkept, hstack⟩ := h.next hs
    obtain ⟨cache, hr, hhas, hall⟩ := ih hu
    refine ⟨cache, hr, fun k hk => hhas k (hkept k hk), ?_⟩
    intro e he
    rcases hstack e he with hk | ⟨e', he', hkey⟩
    · exact hhas _ hk
    · exact hkey ▸ hall e' he'
  | case3 q hs => exact absurd hs h.not_missing

end Query

/-- Nothing that a query looks up is missing, whatever the cache holds. -/
theorem query_isSome (cache : Cache) (s : Subject) : (cache.query s).isSome := by
  rw [query]
  split
  · rfl
  · have hs : Query.Supplied cache.Has [(s, false)] := ⟨fun hr => Bool.noConfusion hr, trivial⟩
    obtain ⟨cache', hr, -, hall⟩ := Query.Supplied.run (q := ⟨cache, [(s, false)]⟩) hs
    obtain ⟨f, hf⟩ := has_key_iff.mp (hall (s, false) List.mem_cons_self)
    simp [hr, hf]

/-- The fingerprint of a node, and the cache with all that was computed for it. -/
def ofNode (cache : Cache) (n : Node) : Fingerprint × Cache :=
  (cache.query (.node n)).get (query_isSome cache _)

/-- The fingerprint of an import record, and the cache after it. -/
def ofImport (cache : Cache) (t : ImportTree) : Fingerprint × Cache :=
  (cache.query (.record t)).get (query_isSome cache _)

end Cache

end RustMetrics
