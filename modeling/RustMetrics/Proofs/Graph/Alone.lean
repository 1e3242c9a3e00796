import Mathlib.Algebra.BigOperators.Group.Finset.Basic
import RustMetrics.Proofs.Graph.Visits

/-! What an item adds to a graph that holds other items already, compared with the
graph of that item alone. A vertex that the others registered is not entered
again, so the two differ; but if the places under it lead to the same vertices
in both, all that is skipped is there already, and the vertices and edges of the
item alone are those it has in the whole graph (`Covers`). The numbers of nodes and
edges are then made up from the graphs of the single items, in whatever order
they came. -/

namespace RustMetrics

namespace Site

/-- Whatever is met and has its vertex among `vs` leads to vertices among `vs` only. -/
def ClosedIn (vs : List Fingerprint) (s : Site) : Prop :=
  ∀ t, s.Meets t → ∀ f, t.fingerprint? = some f → f ∈ vs →
    ∃ below, t.expand = .ok below ∧ ∀ u ∈ below, ∃ c, u.fingerprint? = some c ∧ c ∈ vs

theorem ClosedIn.below {vs : List Fingerprint} {s t : Site} {below : List Site}
    (h : s.ClosedIn vs) (he : s.expand = .ok below) (ht : t ∈ below) : t.ClosedIn vs := by
  intro u hu
  exact h u (.head ⟨below, he, ht⟩ hu)

/-- Places met from the two that share a vertex lead to the same vertices. -/
def Agree (a b : Site) : Prop :=
  ∀ s t f, a.Meets s → b.Meets t → s.fingerprint? = some f → t.fingerprint? = some f →
    ∀ below, s.expand = .ok below →
      ∃ below', t.expand = .ok below' ∧ below'.map fingerprint? = below.map fingerprint?

end Site

namespace Graph

/-- `g` is `h` with the vertices `vs` in addition; only their edges may differ. -/
structure Overlay (vs : List Fingerprint) (g h : Graph Fingerprint) : Prop where
  mem : ∀ v, v ∈ g.vertices ↔ v ∈ vs ∨ v ∈ h.vertices
  outs : ∀ v, v ∉ vs → g.outs v = h.outs v

theorem Overlay.link {vs : List Fingerprint} {g h : Graph Fingerprint} (ho : Overlay vs g h)
    (p f : Fingerprint) : Overlay vs (g.link p f) (h.link p f) := by
  refine ⟨?_, ?_⟩
  · intro v
    rw [mem_link, mem_link, ho.mem]
    tauto
  · intro v hv
    rw [outs_link, outs_link, ho.outs v hv]

/-- A walk that stays among `vs` succeeds from any graph. -/
theorem exists_visits_within {vs : List Fingerprint} {sites : List Site} {p : Fingerprint}
    (h : Graph Fingerprint) (hp : p ∈ vs) (hc : ∀ s ∈ sites, s.ClosedIn vs)
    (hm : ∀ s ∈ sites, ∃ f, s.fingerprint? = some f ∧ f ∈ vs) :
    ∃ h', Visits h p sites h' ∧ (∀ v ∈ h'.vertices, v ∈ vs ∨ v ∈ h.vertices) ∧
      ∀ v, v ∉ vs → h'.outs v = h.outs v := by
  induction hn : Site.sizes sites using Nat.strongRecOn generalizing h p sites with
  | ind k ih =>
    subst hn
    cases sites with
    | nil => exact ⟨h, .nil, fun v hv => .inr hv, fun v _ => rfl⟩
    | cons s rest =>
      obtain ⟨f, hf, hfm⟩ := hm s List.mem_cons_self
      have hpos := Site.size_pos hf
      have hrest : Site.sizes rest < Site.sizes (s :: rest) := by
        rw [Site.sizes_cons]
        omega
      have hlink : ∀ v, v ∉ vs → (h.link p f).outs v = h.outs v := by
        intro v hv
        have hne : p ≠ v := fun he => hv (he ▸ hp)
        rw [outs_link, if_neg hne, List.append_nil]
      -- the first place, then the others from the graph it leaves
      have first : ∃ h₁, Visits h p [s] h₁ ∧ (∀ v ∈ h₁.vertices, v ∈ vs ∨ v ∈ h.vertices) ∧
          ∀ v, v ∉ vs → h₁.outs v = h.outs v := by
        have linked : ∀ v ∈ (h.link p f).vertices, v ∈ vs ∨ v ∈ h.vertices := by
          intro v hv
          rcases mem_link.mp hv with rfl | hv
          · exact .inl hfm
          · exact .inr hv
        by_cases hv : f ∈ h.vertices
        · exact ⟨h.link p f, .seen hf hv .nil, linked, hlink⟩
        · obtain ⟨below, he, hb⟩ := hc s List.mem_cons_self s .refl f hf hfm
          have hlt := Site.sizes_expand_lt hf he
          have hbelow : Site.sizes below < Site.sizes (s :: rest) := by
            rw [Site.sizes_cons]
            omega
          obtain ⟨h₁, h₁v, h₁m, h₁o⟩ := ih _ hbelow (h.link p f) hfm
            (fun t ht => (hc s List.mem_cons_self).below he ht) hb rfl
          refine ⟨h₁, .entered hf hv he h₁v .nil, ?_, ?_⟩
          · intro v hv
            exact (h₁m v hv).elim .inl (linked v)
          · intro v hv
            rw [h₁o v hv, hlink v hv]
      obtain ⟨h₁, h₁v, h₁m, h₁o⟩ := first
      obtain ⟨h₂, h₂v, h₂m, h₂o⟩ := ih _ hrest h₁ hp
        (fun t ht => hc t (List.mem_cons_of_mem _ ht))
        (fun t ht => hm t (List.mem_cons_of_mem _ ht)) rfl
      refine ⟨h₂, visits_cons.mpr ⟨h₁, h₁v, h₂v⟩, ?_, ?_⟩
      · intro v hv
        exact (h₂m v hv).elim .inl (h₁m v)
      · intro v hv
        rw [h₂o v hv, h₁o v hv]

/-- The same places visited without the vertices `vs`: what was skipped because of them is
entered there and stays among them. -/
theorem Visits.overlay {vs : List Fingerprint} {g g' h : Graph Fingerprint} {p : Fingerprint}
    {sites : List Site} (hg : Visits g p sites g') (ho : Overlay vs g h) (hp : p ∉ vs)
    (hc : ∀ s ∈ sites, s.ClosedIn vs) : ∃ h', Visits h p sites h' ∧ Overlay vs g' h' := by
  induction hg generalizing h with
  | nil => exact ⟨h, .nil, ho⟩
  | @seen g p s f rest g' hf hv _ ih =>
    have hrest := fun t ht => hc t (List.mem_cons_of_mem _ ht)
    by_cases hh : f ∈ h.vertices
    · obtain ⟨h', hv', ho'⟩ := ih (ho.link p f) hp hrest
      exact ⟨h', .seen hf hh hv', ho'⟩
    · have hfm : f ∈ vs := ((ho.mem f).mp hv).resolve_right hh
      obtain ⟨below, he, hb⟩ := hc s List.mem_cons_self s .refl f hf hfm
      obtain ⟨h₁, h₁v, h₁m, h₁o⟩ := exists_visits_within (h.link p f) hfm
        (fun t ht => (hc s List.mem_cons_self).below he ht) hb
      have ho₁ : Overlay vs (g.link p f) h₁ := by
        refine ⟨fun v => ⟨fun hm => ?_, fun hm => ?_⟩, fun v hn => ?_⟩
        · exact (((ho.link p f).mem v).mp hm).imp_right h₁v.mem
        · exact ((ho.link p f).mem v).mpr (hm.elim .inl (h₁m v))
        · rw [h₁o v hn, (ho.link p f).outs v hn]
      obtain ⟨h', hv', ho'⟩ := ih ho₁ hp hrest
      exact ⟨h', .entered hf hh he h₁v hv', ho'⟩
  | @entered g p s f below g₁ rest g' hf hn he _ _ ihb ih =>
    have hn' : f ∉ vs ∧ f ∉ h.vertices := by
      rw [ho.mem f, not_or] at hn
      exact hn
    obtain ⟨h₁, h₁v, ho₁⟩ := ihb (ho.link p f) hn'.1
      (fun t ht => (hc s List.mem_cons_self).below he ht)
    obtain ⟨h', hv', ho'⟩ := ih ho₁ hp (fun t ht => hc t (List.mem_cons_of_mem _ ht))
    exact ⟨h', .entered hf hn'.2 he h₁v hv', ho'⟩

/-- Every edge leaves one vertex. -/
theorem edgeCount_eq_sum {g : Graph Fingerprint} {vs : Finset Fingerprint}
    (h : ∀ v, v ∉ vs → g.outs v = []) : g.edgeCount = ∑ v ∈ vs, (g.outs v).length := by
  have hcount : ∀ v, (g.outs v).length = (g.edges.toList.map Edge.parent).count v := by
    intro v
    rw [outs, List.length_map, List.count, List.countP_map, List.countP_eq_length_filter]
    congr 1
  have hmem : ∀ v ∈ g.edges.toList.map Edge.parent, v ∈ vs := by
    intro v hv
    by_contra hn
    have hpos := List.count_pos_iff.mpr hv
    rw [← hcount, h v hn] at hpos
    exact absurd hpos (Nat.lt_irrefl 0)
  have hsum := Multiset.sum_count_eq_card (m := ↑(g.edges.toList.map Edge.parent))
    fun v hv => hmem v (Multiset.mem_coe.mp hv)
  rw [edgeCount, ← Array.length_toList, ← List.length_map (f := Edge.parent),
    ← Multiset.coe_card, ← hsum]
  refine Finset.sum_congr rfl fun v _ => ?_
  rw [Multiset.coe_count, hcount]

/-- The graph of a place walked on its own, from its own vertex. -/
def Alone (s : Site) (h : Graph Fingerprint) : Prop :=
  ∃ f below, s.fingerprint? = some f ∧ s.expand = .ok below ∧ Visits (empty.setRoot f) f below h

theorem mem_empty_setRoot {f v : Fingerprint} : v ∈ (empty.setRoot f).vertices ↔ v = f := by
  simp [setRoot, register, empty]

theorem outs_empty_setRoot (f v : Fingerprint) : (empty.setRoot f).outs v = [] := by
  simp [outs, setRoot, register, empty]

namespace Alone

variable {s : Site} {h : Graph Fingerprint} {v : Fingerprint}

theorem mem (ha : Alone s h) (hf : s.fingerprint? = some v) : v ∈ h.vertices := by
  obtain ⟨f, below, hf', _, hv⟩ := ha
  rw [hf] at hf'
  cases hf'
  exact hv.mem (mem_empty_setRoot.mpr rfl)

theorem unique {h' : Graph Fingerprint} (ha : Alone s h) (ha' : Alone s h') : h = h' := by
  obtain ⟨f, below, hf, he, hv⟩ := ha
  obtain ⟨f', below', hf', he', hv'⟩ := ha'
  rw [hf] at hf'
  rw [he] at he'
  cases hf'
  cases he'
  exact hv.unique hv'

theorem exists_meets (ha : Alone s h) (hm : v ∈ h.vertices) :
    ∃ t below, s.Meets t ∧ t.fingerprint? = some v ∧ t.expand = .ok below ∧
      h.outs v = below.filterMap Site.fingerprint? ∧
      ∀ u ∈ below, ∃ c, u.fingerprint? = some c ∧ c ∈ h.vertices := by
  obtain ⟨f, below, hf, he, hv⟩ := ha
  by_cases hfv : f = v
  · subst hfv
    refine ⟨s, below, .refl, hf, he, ?_, hv.registered⟩
    rw [hv.outs_of_mem (mem_empty_setRoot.mpr rfl), if_pos rfl, outs_empty_setRoot, List.nil_append]
  · have hn : v ∉ (empty.setRoot f).vertices := fun hv => hfv (mem_empty_setRoot.mp hv).symm
    obtain ⟨t, ht, u, htu, hu, below', he', ho, hb⟩ := hv.exists_meets hm hn hfv
    rw [outs_empty_setRoot, List.nil_append] at ho
    exact ⟨u, below', .head ⟨below, he, ht⟩ htu, hu, he', ho, hb⟩

/-- Where two items agree, a vertex of both has the same edges in both. -/
theorem outs_eq {a b : Site} {h h' : Graph Fingerprint} (hab : a.Agree b) (ha : Alone a h)
    (hb : Alone b h') (hv : v ∈ h.vertices) (hv' : v ∈ h'.vertices) : h.outs v = h'.outs v := by
  obtain ⟨s, below, hs, hfs, hes, hos, _⟩ := ha.exists_meets hv
  obtain ⟨t, below₁, ht, hft, het, hot, _⟩ := hb.exists_meets hv'
  obtain ⟨below₂, he₂, hm⟩ := hab s t v hs ht hfs hft below hes
  rw [het] at he₂
  cases he₂
  have ids : ∀ sites : List Site, sites.filterMap Site.fingerprint? =
      (sites.map Site.fingerprint?).filterMap id := by
    intro sites
    rw [List.filterMap_map]
    rfl
  rw [hos, hot, ids, ids, hm]

end Alone

/-- A vertex of one of the items alone. -/
def Covered (seen : List Site) (v : Fingerprint) : Prop :=
  ∃ a ∈ seen, ∃ h, Alone a h ∧ v ∈ h.vertices

theorem covered_cons {a : Site} {seen : List Site} {h : Graph Fingerprint} {v : Fingerprint}
    (ha : Alone a h) : Covered (a :: seen) v ↔ v ∈ h.vertices ∨ Covered seen v := by
  constructor
  · rintro ⟨b, hb, h', hbh, hv⟩
    rcases List.mem_cons.mp hb with rfl | hb
    · exact .inl (hbh.unique ha ▸ hv)
    · exact .inr ⟨b, hb, h', hbh, hv⟩
  · rintro (hv | ⟨b, hb, h', hbh, hv⟩)
    · exact ⟨a, List.mem_cons_self, h, ha, hv⟩
    · exact ⟨b, List.mem_cons_of_mem _ hb, h', hbh, hv⟩

/-- A graph in which the items `seen` were visited from the file's vertex `r`: its
other vertices and their edges are those of the items alone. -/
structure Covers (r : Fingerprint) (seen : List Site) (g : Graph Fingerprint) : Prop where
  nodup : g.vertices.Nodup
  alone : ∀ a ∈ seen, ∃ h, Alone a h
  mem : ∀ v, v ∈ g.vertices ↔ v = r ∨ Covered seen v
  outs : ∀ v ∈ g.vertices, v ≠ r →
    ∃ a ∈ seen, ∃ h, Alone a h ∧ v ∈ h.vertices ∧ g.outs v = h.outs v
  root : (g.outs r).length = seen.length
  rest : ∀ v, v ∉ g.vertices → g.outs v = []

namespace Covers

variable {r : Fingerprint} {seen : List Site} {g g' : Graph Fingerprint} {a : Site}

theorem start (r : Fingerprint) (n : Int) :
    Covers r [] ((empty.setRoot r).setComponents n) := by
  have hm : ∀ v, v ∈ ((empty.setRoot r).setComponents n).vertices ↔ v = r := fun v =>
    mem_empty_setRoot
  have ho : ∀ v, ((empty.setRoot r).setComponents n).outs v = [] := fun v =>
    outs_empty_setRoot r v
  refine ⟨?_, ?_, ?_, ?_, ?_, fun v _ => ho v⟩
  · simp [setComponents, setRoot, register, empty]
  · intro a ha; cases ha
  · intro v
    rw [hm]
    simp [Covered]
  · intro v hv hvr
    exact absurd ((hm v).mp hv) hvr
  · rw [ho]
    rfl

/-- What a further item shares with the graph leads into the graph. -/
theorem closedIn (hc : Covers r seen g) (hagree : ∀ b ∈ seen, b.Agree a)
    (hr : ∀ t, a.Meets t → t.fingerprint? ≠ some r) : a.ClosedIn g.vertices := by
  intro t ht f hf hm
  have hfr : f ≠ r := fun he => hr t ht (he ▸ hf)
  obtain ⟨b, hb, h, hbh, hfh⟩ := ((hc.mem f).mp hm).resolve_left hfr
  obtain ⟨u, below, hu, hfu, heu, _, hreg⟩ := hbh.exists_meets hfh
  obtain ⟨below', he', hids⟩ := hagree b hb u t f hu ht hfu hf below heu
  refine ⟨below', he', ?_⟩
  intro x hx
  have hx' : x.fingerprint? ∈ below.map Site.fingerprint? := hids ▸ List.mem_map_of_mem hx
  obtain ⟨y, hy, hxy⟩ := List.mem_map.mp hx'
  obtain ⟨c, hyc, hch⟩ := hreg y hy
  exact ⟨c, hxy ▸ hyc, (hc.mem c).mpr (.inr ⟨b, hb, h, hbh, hch⟩)⟩

/-- An item whose vertex is there already adds the edge to it and nothing else. -/
theorem link {f : Fingerprint} (hc : Covers r seen g) (hv : f ∈ g.vertices)
    (ha : ∃ h, Alone a h ∧ ∀ v ∈ h.vertices, v ∈ g.vertices) :
    Covers r (a :: seen) (g.link r f) := by
  obtain ⟨h, hah, hsub⟩ := ha
  have hvs : (g.link r f).vertices = g.vertices := link_vertices_of_mem hv
  have hr : r ∈ g.vertices := (hc.mem r).mpr (.inl rfl)
  have houts : ∀ v, v ≠ r → (g.link r f).outs v = g.outs v := by
    intro v hvr
    rw [outs_link, if_neg hvr.symm, List.append_nil]
  refine ⟨hvs ▸ hc.nodup, ?_, ?_, ?_, ?_, ?_⟩
  · exact List.forall_mem_cons.mpr ⟨⟨h, hah⟩, hc.alone⟩
  · intro v
    rw [hvs, covered_cons hah]
    refine ⟨fun hv => ((hc.mem v).mp hv).imp_right .inr, ?_⟩
    rintro (hvr | hvh | hcov)
    · exact (hc.mem v).mpr (.inl hvr)
    · exact hsub v hvh
    · exact (hc.mem v).mpr (.inr hcov)
  · intro v hv hvr
    obtain ⟨b, hb, h, hbh, hvh, ho⟩ := hc.outs v (hvs ▸ hv) hvr
    exact ⟨b, List.mem_cons_of_mem _ hb, h, hbh, hvh, (houts v hvr).trans ho⟩
  · rw [outs_link, if_pos rfl, List.length_append, hc.root]
    rfl
  · intro v hv
    rw [hvs] at hv
    rw [houts v fun he => hv (he ▸ hr), hc.rest v hv]

/-- A new item adds its own graph. -/
theorem enter {f : Fingerprint} {below : List Site} (hc : Covers r seen g)
    (hclosed : a.ClosedIn g.vertices) (hf : a.fingerprint? = some f) (hn : f ∉ g.vertices)
    (he : a.expand = .ok below) (hv : Visits (g.link r f) f below g') :
    Covers r (a :: seen) g' := by
  have hr : r ∈ g.vertices := (hc.mem r).mpr (.inl rfl)
  have hstart : Overlay g.vertices (g.link r f) (empty.setRoot f) := by
    refine ⟨fun v => ?_, fun v hvn => ?_⟩
    · rw [mem_link, mem_empty_setRoot, or_comm]
    · have hrv : r ≠ v := fun h => hvn (h ▸ hr)
      rw [outs_link, if_neg hrv, hc.rest v hvn, outs_empty_setRoot, List.append_nil]
  obtain ⟨h, hvh, ho⟩ := hv.overlay hstart hn fun t ht => hclosed.below he ht
  have hah : Alone a h := ⟨f, below, hf, he, hvh⟩
  have hold : ∀ v ∈ g.vertices, g'.outs v = g.outs v ++ if r = v then [f] else [] := by
    intro v hvm
    have hfv : f ≠ v := fun h => hn (h ▸ hvm)
    rw [hv.outs_of_mem (mem_link.mpr (.inr hvm)), if_neg hfv, List.append_nil, outs_link]
  refine ⟨?_, ?_, ?_, ?_, ?_, ?_⟩
  · refine hv.nodup ?_
    rw [link_vertices_of_notMem hn]
    exact List.nodup_cons.mpr ⟨hn, hc.nodup⟩
  · exact List.forall_mem_cons.mpr ⟨⟨h, hah⟩, hc.alone⟩
  · intro v
    rw [ho.mem, hc.mem, covered_cons hah, or_assoc, or_comm (b := v ∈ h.vertices)]
  · intro v hvm hvr
    by_cases hvg : v ∈ g.vertices
    · obtain ⟨b, hb, h', hbh, hvb, hob⟩ := hc.outs v hvg hvr
      refine ⟨b, List.mem_cons_of_mem _ hb, h', hbh, hvb, ?_⟩
      rw [hold v hvg, if_neg hvr.symm, List.append_nil, hob]
    · exact ⟨a, List.mem_cons_self, h, hah, ((ho.mem v).mp hvm).resolve_left hvg, ho.outs v hvg⟩
  · rw [hold r hr, if_pos rfl, List.length_append, hc.root]
    rfl
  · intro v hvn
    have hvg : v ∉ g.vertices := fun h => hvn ((ho.mem v).mpr (.inl h))
    have hfv : f ≠ v := fun h => hvn (hv.mem (mem_link.mpr (.inl h.symm)))
    have hrv : r ≠ v := fun h => hvg (h ▸ hr)
    rw [hv.outs_of_notMem hvn hfv, outs_link, if_neg hrv, List.append_nil, hc.rest v hvg]

/-- One item more, which was there before or agrees with all that were. -/
theorem step (hc : Covers r seen g) (hv : Visits g r [a] g')
    (hagree : a ∈ seen ∨ ∀ b ∈ seen, b.Agree a)
    (hr : ∀ t, a.Meets t → t.fingerprint? ≠ some r) : Covers r (a :: seen) g' := by
  cases hv with
  | @seen _ _ _ f _ _ hf hm hn =>
    cases hn
    refine hc.link hm ?_
    rcases hagree with has | hagree
    · obtain ⟨h, hah⟩ := hc.alone a has
      exact ⟨h, hah, fun v hvh => (hc.mem v).mpr (.inr ⟨a, has, h, hah, hvh⟩)⟩
    · -- never entered here, yet walked on its own it stays within the graph
      have hclosed := hc.closedIn hagree hr
      obtain ⟨below, he, hb⟩ := hclosed a .refl f hf hm
      obtain ⟨h, hvh, hsub, _⟩ := exists_visits_within (empty.setRoot f) hm
        (fun t ht => hclosed.below he ht) hb
      refine ⟨h, ⟨f, below, hf, he, hvh⟩, ?_⟩
      intro v hvm
      rcases hsub v hvm with hvg | hvf
      · exact hvg
      · exact mem_empty_setRoot.mp hvf ▸ hm
  | @entered _ _ _ f below _ _ _ hf hm he hb hn =>
    cases hn
    rcases hagree with has | hagree
    · obtain ⟨h, hah⟩ := hc.alone a has
      exact absurd ((hc.mem f).mpr (.inr ⟨a, has, h, hah, hah.mem hf⟩)) hm
    · exact hc.enter (hc.closedIn hagree hr) hf hm he hb

/-- All items of a file, of which any two are equal or agree. -/
theorem run {sites : List Site} (hc : Covers r seen g) (hv : Visits g r sites g')
    (hagree : ∀ a ∈ sites, ∀ b ∈ seen ++ sites, b = a ∨ b.Agree a)
    (hr : ∀ a ∈ sites, ∀ t, a.Meets t → t.fingerprint? ≠ some r) :
    ∃ all, all.Perm (seen ++ sites) ∧ Covers r all g' := by
  induction sites generalizing seen g with
  | nil =>
    cases hv
    exact ⟨seen, by rw [List.append_nil], hc⟩
  | cons a sites ih =>
    obtain ⟨g₁, hv₁, hv₂⟩ := visits_cons.mp hv
    have ha : a ∈ seen ∨ ∀ b ∈ seen, b.Agree a := by
      by_cases has : a ∈ seen
      · exact .inl has
      · refine .inr fun b hb => ?_
        rcases hagree a List.mem_cons_self b (List.mem_append_left _ hb) with rfl | hba
        · exact absurd hb has
        · exact hba
    have hperm : (a :: seen ++ sites).Perm (seen ++ a :: sites) := List.perm_middle.symm
    obtain ⟨all, hall, hcov⟩ := ih (hc.step hv₁ ha (hr a List.mem_cons_self)) hv₂
      (fun b hb c hc' => hagree b (List.mem_cons_of_mem _ hb) c (hperm.mem_iff.mp hc'))
      (fun b hb => hr b (List.mem_cons_of_mem _ hb))
    exact ⟨all, hall.trans hperm, hcov⟩

theorem nodeCount_eq (hc : Covers r seen g) :
    g.nodeCount = (g.vertices.toFinset.erase r).card + 1 := by
  have hr : r ∈ g.vertices.toFinset := List.mem_toFinset.mpr ((hc.mem r).mpr (.inl rfl))
  rw [nodeCount, ← List.toFinset_card_of_nodup hc.nodup, Finset.card_erase_add_one hr]

theorem edgeCount_eq (hc : Covers r seen g) :
    g.edgeCount = (∑ v ∈ g.vertices.toFinset.erase r, (g.outs v).length) + seen.length := by
  have hr : r ∈ g.vertices.toFinset := List.mem_toFinset.mpr ((hc.mem r).mpr (.inl rfl))
  rw [← hc.root, Finset.sum_erase_add _ _ hr]
  refine edgeCount_eq_sum fun v hv => hc.rest v fun hm => hv (List.mem_toFinset.mpr hm)

/-- The counts do not depend on the order in which the items came, nor on the vertex that
stands for the file. -/
theorem counts_eq {r' : Fingerprint} {seen' : List Site} (hc : Covers r seen g)
    (hc' : Covers r' seen' g') (hp : seen.Perm seen')
    (hagree : ∀ a ∈ seen, ∀ b ∈ seen, a = b ∨ a.Agree b)
    (hr : ∀ a ∈ seen, ∀ t, a.Meets t → t.fingerprint? ≠ some r ∧ t.fingerprint? ≠ some r') :
    g.nodeCount = g'.nodeCount ∧ g.edgeCount = g'.edgeCount := by
  have hroots : ∀ a ∈ seen, ∀ h v, Alone a h → v ∈ h.vertices → v ≠ r ∧ v ≠ r' := by
    intro a ha h v hah hv
    obtain ⟨t, _, ht, hft, _⟩ := hah.exists_meets hv
    have hne := hr a ha t ht
    exact ⟨fun he => hne.1 (he ▸ hft), fun he => hne.2 (he ▸ hft)⟩
  have hvs : g.vertices.toFinset.erase r = g'.vertices.toFinset.erase r' := by
    ext v
    rw [Finset.mem_erase, Finset.mem_erase, List.mem_toFinset, List.mem_toFinset, hc.mem, hc'.mem]
    constructor
    · rintro ⟨hvr, hv⟩
      obtain ⟨a, ha, h, hah, hvh⟩ := hv.resolve_left hvr
      exact ⟨(hroots a ha h v hah hvh).2, .inr ⟨a, hp.mem_iff.mp ha, h, hah, hvh⟩⟩
    · rintro ⟨hvr, hv⟩
      obtain ⟨a, ha, h, hah, hvh⟩ := hv.resolve_left hvr
      have ha := hp.mem_iff.mpr ha
      exact ⟨(hroots a ha h v hah hvh).1, .inr ⟨a, ha, h, hah, hvh⟩⟩
  refine ⟨by rw [hc.nodeCount_eq, hc'.nodeCount_eq, hvs], ?_⟩
  rw [hc.edgeCount_eq, hc'.edgeCount_eq, hp.length_eq, ← hvs]
  congr 1
  refine Finset.sum_congr rfl fun v hv => ?_
  have hv' := hvs ▸ hv
  rw [Finset.mem_erase, List.mem_toFinset] at hv hv'
  obtain ⟨a, ha, h, hah, hvh, ho⟩ := hc.outs v hv.2 hv.1
  obtain ⟨b, hb, h', hbh, hvb, ho'⟩ := hc'.outs v hv'.2 hv'.1
  rw [ho, ho']
  rcases hagree a ha b (hp.mem_iff.mpr hb) with rfl | hab
  · rw [hah.unique hbh]
  · rw [hah.outs_eq hab hbh hvh hvb]

end Covers

end Graph

end RustMetrics
