import RustMetrics.Proofs.Graph.Trace

/-! What visiting places does to a graph. `Visits` is the plain recursion as a
relation, one rule for each thing that can happen to the first place of a list.
A visit leaves the edges of registered vertices alone, but for those of the parent
it starts from; a vertex that it registers belongs to a place that is met below
the start, and gets the edges to what that place leads to. -/

namespace RustMetrics

/-- The places met from a place on if every place is entered. -/
def Site.Meets : Site → Site → Prop :=
  Relation.ReflTransGen fun s t => ∃ below, s.expand = .ok below ∧ t ∈ below

namespace Graph

/-- The children of the edges that leave a vertex, in the order of insertion. -/
def outs {V : Type} [DecidableEq V] (g : Graph V) (v : V) : List V :=
  (g.edges.toList.filter fun e => e.parent = v).map Edge.child

theorem outs_link {V : Type} [DecidableEq V] (g : Graph V) (parent child v : V) :
    (g.link parent child).outs v = g.outs v ++ if parent = v then [child] else [] := by
  rw [outs, link_edges, Array.toList_push, List.filter_append, List.map_append, outs]
  congr 1
  by_cases h : parent = v
  · simp [h]
  · simp [h]

/-- Visiting places in turn from one parent. -/
def visitAll (g : Graph Fingerprint) (parent : Fingerprint) (sites : List Site) :
    Except Failure (Graph Fingerprint) :=
  sites.foldlM (fun g s => g.visit parent s) g

inductive Visits : Graph Fingerprint → Fingerprint → List Site → Graph Fingerprint → Prop
  | nil {g p} : Visits g p [] g
  | seen {g p s f rest g'} :
      s.fingerprint? = some f → f ∈ g.vertices → Visits (g.link p f) p rest g' →
      Visits g p (s :: rest) g'
  | entered {g p s f below g₁ rest g'} :
      s.fingerprint? = some f → f ∉ g.vertices → s.expand = .ok below →
      Visits (g.link p f) f below g₁ → Visits g₁ p rest g' → Visits g p (s :: rest) g'

theorem visits_cons {g g' : Graph Fingerprint} {p : Fingerprint} {s : Site} {rest : List Site} :
    Visits g p (s :: rest) g' ↔ ∃ g₁, Visits g p [s] g₁ ∧ Visits g₁ p rest g' := by
  constructor
  · intro h
    cases h with
    | seen hf hv hr => exact ⟨_, .seen hf hv .nil, hr⟩
    | entered hf hv he hb hr => exact ⟨_, .entered hf hv he hb .nil, hr⟩
  · rintro ⟨g₁, hs, hr⟩
    cases hs with
    | seen hf hv hn => cases hn; exact .seen hf hv hr
    | entered hf hv he hb hn => cases hn; exact .entered hf hv he hb hr

theorem visitAll_cons (g : Graph Fingerprint) (p : Fingerprint) (s : Site) (rest : List Site) :
    g.visitAll p (s :: rest) = g.visit p s >>= fun g => g.visitAll p rest :=
  List.foldlM_cons

theorem visits_of_visitAll {g g' : Graph Fingerprint} {p : Fingerprint} {sites : List Site}
    (h : g.visitAll p sites = .ok g') : Visits g p sites g' := by
  induction hn : Site.sizes sites using Nat.strongRecOn generalizing g g' p sites with
  | ind k ih =>
    subst hn
    cases sites with
    | nil => cases h; exact .nil
    | cons s rest =>
      rw [visitAll_cons] at h
      cases hf : s.fingerprint? with
      | none => rw [visit_absent hf] at h; cases h
      | some f =>
        have hpos := Site.size_pos hf
        have hrest : Site.sizes rest < Site.sizes (s :: rest) := by
          rw [Site.sizes_cons]
          omega
        by_cases hv : f ∈ g.vertices
        · rw [visit_seen hf hv] at h
          exact .seen hf hv (ih _ hrest h rfl)
        · cases he : s.expand with
          | error e => rw [visit_refused hf hv he] at h; cases h
          | ok below =>
            rw [visit_entered hf hv he] at h
            have hlt := Site.sizes_expand_lt hf he
            have hbelow : Site.sizes below < Site.sizes (s :: rest) := by
              rw [Site.sizes_cons]
              omega
            cases hb : (g.link p f).visitAll f below with
            | error e =>
              rw [visitAll] at hb
              rw [hb] at h
              cases h
            | ok g₁ =>
              have hin := ih _ hbelow hb rfl
              rw [visitAll] at hb
              rw [hb] at h
              exact .entered hf hv he hin (ih _ hrest h rfl)

theorem Visits.visitAll_eq {g g' : Graph Fingerprint} {p : Fingerprint} {sites : List Site}
    (h : Visits g p sites g') : g.visitAll p sites = .ok g' := by
  induction h with
  | nil => rfl
  | seen hf hv _ ih =>
    rw [visitAll_cons, visit_seen hf hv]
    exact ih
  | entered hf hv he _ _ ihb ih =>
    rw [visitAll_cons, visit_entered hf hv he]
    change (Graph.visitAll _ _ _ >>= _) = _
    rw [ihb]
    exact ih

theorem Visits.unique {g g₁ g₂ : Graph Fingerprint} {p : Fingerprint} {sites : List Site}
    (h₁ : Visits g p sites g₁) (h₂ : Visits g p sites g₂) : g₁ = g₂ :=
  Except.ok.inj (h₁.visitAll_eq.symm.trans h₂.visitAll_eq)

namespace Visits

variable {g g' : Graph Fingerprint} {p v : Fingerprint} {sites : List Site}

theorem mem (h : Visits g p sites g') (hv : v ∈ g.vertices) : v ∈ g'.vertices := by
  induction h with
  | nil => exact hv
  | seen _ _ _ ih => exact ih (mem_link.mpr (.inr hv))
  | entered _ _ _ _ _ ihb ih => exact ih (ihb (mem_link.mpr (.inr hv)))

theorem nodup (h : Visits g p sites g') (hn : g.vertices.Nodup) : g'.vertices.Nodup := by
  have linked : ∀ {g : Graph Fingerprint} {p f}, g.vertices.Nodup →
      (g.link p f).vertices.Nodup := by
    intro g p f hn
    by_cases hv : f ∈ g.vertices
    · rw [link_vertices_of_mem hv]
      exact hn
    · rw [link_vertices_of_notMem hv]
      exact List.nodup_cons.mpr ⟨hv, hn⟩
  induction h with
  | nil => exact hn
  | seen _ _ _ ih => exact ih (linked hn)
  | entered _ _ _ _ _ ihb ih => exact ih (ihb (linked hn))

/-- Every place that is visited has a vertex afterwards. -/
theorem registered (h : Visits g p sites g') :
    ∀ s ∈ sites, ∃ f, s.fingerprint? = some f ∧ f ∈ g'.vertices := by
  induction h with
  | nil => intro s hs; cases hs
  | seen hf _ hr ih =>
    intro s hs
    rcases List.mem_cons.mp hs with rfl | hs
    · exact ⟨_, hf, hr.mem (mem_link.mpr (.inl rfl))⟩
    · exact ih s hs
  | entered hf _ _ hb hr _ ih =>
    intro s hs
    rcases List.mem_cons.mp hs with rfl | hs
    · exact ⟨_, hf, hr.mem (hb.mem (mem_link.mpr (.inl rfl)))⟩
    · exact ih s hs

/-- Of the vertices that were there before, only the parent gets edges: one to each
place in turn. -/
theorem outs_of_mem (h : Visits g p sites g') (hv : v ∈ g.vertices) :
    g'.outs v = g.outs v ++ if p = v then sites.filterMap Site.fingerprint? else [] := by
  induction h with
  | nil => simp
  | @seen g p s f rest g' hf _ _ ih =>
    rw [ih (mem_link.mpr (.inr hv)), outs_link, List.append_assoc, List.filterMap_cons_some hf]
    congr 1
    split <;> rfl
  | @entered g p s f below g₁ rest g' hf hn _ hb _ ihb ih =>
    have hv' : v ∈ (g.link p f).vertices := mem_link.mpr (.inr hv)
    have hne : f ≠ v := fun he => hn (he ▸ hv)
    rw [ih (hb.mem hv'), ihb hv', outs_link, if_neg hne, List.append_nil, List.append_assoc,
      List.filterMap_cons_some hf]
    congr 1
    split <;> rfl

/-- A vertex that is not registered afterwards got no edges. -/
theorem outs_of_notMem (h : Visits g p sites g') (hv : v ∉ g'.vertices) (hp : p ≠ v) :
    g'.outs v = g.outs v := by
  induction h with
  | nil => rfl
  | seen _ _ _ ih => rw [ih hv hp, outs_link, if_neg hp, List.append_nil]
  | entered _ _ _ hb hr ihb ih =>
    have hb' := fun hm => hv (hr.mem hm)
    have hf := fun he => hb' (hb.mem (mem_link.mpr (.inl (Eq.symm he))))
    rw [ih hv hp, ihb hb' hf, outs_link, if_neg hp, List.append_nil]

/-- A vertex that was registered on the way is that of a place met below, and its edges
lead to what that place leads to, all of it registered. -/
theorem exists_meets (h : Visits g p sites g') (hv : v ∈ g'.vertices) (hn : v ∉ g.vertices)
    (hp : p ≠ v) :
    ∃ s ∈ sites, ∃ t, s.Meets t ∧ t.fingerprint? = some v ∧ ∃ below, t.expand = .ok below ∧
      g'.outs v = g.outs v ++ below.filterMap Site.fingerprint? ∧
      ∀ u ∈ below, ∃ f, u.fingerprint? = some f ∧ f ∈ g'.vertices := by
  induction h with
  | nil => exact absurd hv hn
  | @seen g p s f rest g' hf hm _ ih =>
    have hn' : v ∉ (g.link p f).vertices := fun hl =>
      (mem_link.mp hl).elim (fun he => hn (he ▸ hm)) hn
    obtain ⟨s, hs, t, ht, hft, below, he, ho, hb⟩ := ih hv hn' hp
    rw [outs_link, if_neg hp, List.append_nil] at ho
    exact ⟨s, List.mem_cons_of_mem _ hs, t, ht, hft, below, he, ho, hb⟩
  | @entered g p s f below g₁ rest g' hf hm he hb hr ihb ih =>
    by_cases hv₁ : v ∈ g₁.vertices
    · by_cases hvf : f = v
      · -- the vertex of the first place itself
        subst hvf
        have hl : f ∈ (g.link p f).vertices := mem_link.mpr (.inl rfl)
        refine ⟨s, List.mem_cons_self, s, .refl, hf, below, he, ?_, ?_⟩
        · rw [hr.outs_of_mem hv₁, if_neg hp, List.append_nil, hb.outs_of_mem hl, if_pos rfl,
            outs_link, if_neg hp, List.append_nil]
        · intro u hu
          obtain ⟨c, hc, hm⟩ := hb.registered u hu
          exact ⟨c, hc, hr.mem hm⟩
      · -- a vertex met below it
        have hn' : v ∉ (g.link p f).vertices := fun hl =>
          (mem_link.mp hl).elim (fun he => hvf he.symm) hn
        obtain ⟨t, ht, u, htu, hfu, below', he', ho, hb'⟩ := ihb hv₁ hn' hvf
        refine ⟨s, List.mem_cons_self, u, .head ⟨below, he, ht⟩ htu, hfu, below', he', ?_, ?_⟩
        · rw [hr.outs_of_mem hv₁, if_neg hp, List.append_nil, ho, outs_link, if_neg hp,
            List.append_nil]
        · intro x hx
          obtain ⟨c, hc, hm⟩ := hb' x hx
          exact ⟨c, hc, hr.mem hm⟩
    · have hvf : f ≠ v := fun he => hv₁ (hb.mem (mem_link.mpr (.inl he.symm)))
      obtain ⟨t, ht, u, htu, hfu, below', he', ho, hb'⟩ := ih hv hv₁ hp
      rw [hb.outs_of_notMem hv₁ hvf, outs_link, if_neg hp, List.append_nil] at ho
      exact ⟨t, List.mem_cons_of_mem _ ht, u, htu, hfu, below', he', ho, hb'⟩

end Visits

/-- The graph of a file is what visiting its items from its own vertex gives. -/
theorem ofFile_eq_ok_iff_visits {tree : SyntaxTree} {g : Graph Fingerprint} :
    ofFile tree = .ok g ↔ ∃ sites,
    Site.ofFile tree.root = .ok sites ∧
      Visits ((empty.setRoot tree.root.fingerprint).setComponents tree.root.items.length)
        tree.root.fingerprint sites g := by
  rw [ofFile, Builder.build_eq_ok_iff_traced, traced_eq_ok_iff]
  simp only [Walk.rest_start]
  exact exists_congr fun sites => and_congr_right fun _ =>
    ⟨visits_of_visitAll, fun h => h.visitAll_eq⟩

theorem ofFile_of_visits {tree : SyntaxTree} {r : Fingerprint} {sites : List Site}
    {g : Graph Fingerprint} (hr : tree.root.fingerprint = r)
    (hs : Site.ofFile tree.root = .ok sites)
    (hv : Visits ((empty.setRoot r).setComponents tree.root.items.length) r sites g) :
    ofFile tree = .ok g := by
  subst hr
  exact ofFile_eq_ok_iff_visits.mpr ⟨sites, hs, hv⟩

end Graph

end RustMetrics
