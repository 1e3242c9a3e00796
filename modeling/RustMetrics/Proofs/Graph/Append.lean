import RustMetrics.Proofs.Graph.OwnShape
import RustMetrics.Proofs.Graph.Revisit

/-! A file with one more item at its end. All that comes before the new item is walked first,
while the item waits at the bottom of the stack, so what is built until then is the graph
of the shorter file, but for the file's own vertex. The new item is one more component, which
adds two to the complexity, and each place that is revisited from there on adds one.
The file's own vertex is registered before all others and is not the same in both files;
so this needs that no place has the shape of one of the files. -/

namespace RustMetrics

/-- An edge with its ends under other names. -/
def Edge.map {V W : Type} (f : V → W) (e : Edge V) : Edge W := ⟨f e.parent, f e.child⟩

namespace Graph

section Mirrors

variable {V : Type} {f : V → V} {g h : Graph V} {old new v : V}

/-- Two graphs with the same edges and vertices in the same order, under other names. -/
structure Mirrors (f : V → V) (g h : Graph V) : Prop where
  edges : h.edges.toList = g.edges.toList.map (Edge.map f)
  vertices : h.vertices = g.vertices.map f

theorem Mirrors.edgeCount_eq (hm : Mirrors f g h) : h.edgeCount = g.edgeCount := by
  rw [edgeCount, ← Array.length_toList, hm.edges, List.length_map, Array.length_toList, edgeCount]

theorem Mirrors.nodeCount_eq (hm : Mirrors f g h) : h.nodeCount = g.nodeCount := by
  rw [nodeCount, hm.vertices, List.length_map, nodeCount]

variable [DecidableEq V]

/-- One name in the place of another. -/
def moved (old new v : V) : V := if v = old then new else v

theorem moved_self (old new : V) : moved old new old = new := if_pos rfl

theorem moved_of_ne (h : v ≠ old) : moved old new v = v := if_neg h

theorem mem_map_moved {vs : List V} (ho : v ≠ old) (hn : v ≠ new) :
    v ∈ vs.map (moved old new) ↔ v ∈ vs := by
  rw [List.mem_map]
  constructor
  · rintro ⟨u, hu, hv⟩
    by_cases huo : u = old
    · rw [huo, moved_self] at hv
      exact absurd hv.symm hn
    · rw [moved_of_ne huo] at hv
      exact hv ▸ hu
  · intro hv
    exact ⟨v, hv, moved_of_ne ho⟩

theorem Mirrors.mem_iff (hm : Mirrors (moved old new) g h) (ho : v ≠ old) (hn : v ≠ new) :
    v ∈ h.vertices ↔ v ∈ g.vertices := by
  rw [hm.vertices, mem_map_moved ho hn]

theorem Mirrors.link (hm : Mirrors (moved old new) g h) (parent : V) (ho : v ≠ old)
    (hn : v ≠ new) :
    Mirrors (moved old new) (g.link parent v) (h.link (moved old new parent) v) := by
  refine ⟨?_, ?_⟩
  · rw [link_edges, link_edges, Array.toList_push, Array.toList_push, hm.edges, List.map_append,
      List.map_singleton, Edge.map, moved_of_ne ho]
  · by_cases hv : v ∈ g.vertices
    · rw [link_vertices_of_mem ((hm.mem_iff ho hn).mpr hv), link_vertices_of_mem hv, hm.vertices]
    · rw [link_vertices_of_notMem fun hh => hv ((hm.mem_iff ho hn).mp hh),
        link_vertices_of_notMem hv, hm.vertices, List.map_cons, moved_of_ne ho]

end Mirrors

/-- What can be visited after one vertex was renamed could be visited before, if no place
has the old name or the new one. -/
theorem Visits.mirrored {g h h' : Graph Fingerprint} {old new p q : Fingerprint}
    {sites : List Site} (hv : Visits h q sites h') (hm : Mirrors (moved old new) g h)
    (hq : q = moved old new p)
    (hne : ∀ s ∈ sites, ∀ t, s.Meets t → t.fingerprint? ≠ some old ∧ t.fingerprint? ≠ some new) :
    ∃ g', Visits g p sites g' ∧ Mirrors (moved old new) g' h' := by
  induction hv generalizing g p with
  | nil => exact ⟨g, .nil, hm⟩
  | @seen h q s f rest h' hf hmem _ ih =>
    obtain ⟨ho, hn⟩ := hne s List.mem_cons_self s .refl
    rw [hf, ne_eq, Option.some.injEq] at ho hn
    obtain ⟨g', hg', hm'⟩ := ih (hq ▸ hm.link p ho hn) hq
      fun s hs => hne s (List.mem_cons_of_mem _ hs)
    exact ⟨g', .seen hf ((hm.mem_iff ho hn).mp hmem) hg', hm'⟩
  | @entered h q s f below h₁ rest h' hf hmem he _ _ ihb ih =>
    obtain ⟨ho, hn⟩ := hne s List.mem_cons_self s .refl
    rw [hf, ne_eq, Option.some.injEq] at ho hn
    obtain ⟨g₁, hg₁, hm₁⟩ := ihb (hq ▸ hm.link p ho hn) (moved_of_ne ho).symm
      fun t ht u hu => hne s List.mem_cons_self u (.head ⟨below, he, ht⟩ hu)
    obtain ⟨g', hg', hm'⟩ := ih hm₁ hq fun s hs => hne s (List.mem_cons_of_mem _ hs)
    exact ⟨g', .entered hf (fun hg => hmem ((hm.mem_iff ho hn).mpr hg)) he hg₁ hg', hm'⟩

theorem visits_append {g g' : Graph Fingerprint} {p : Fingerprint} {sites more : List Site}
    (h : Visits g p (sites ++ more) g') : ∃ g₁, Visits g p sites g₁ ∧ Visits g₁ p more g' := by
  induction sites generalizing g with
  | nil => exact ⟨g, .nil, h⟩
  | cons s sites ih =>
    obtain ⟨g₁, hs, hr⟩ := visits_cons.mp h
    obtain ⟨g₂, h₁, h₂⟩ := ih hr
    exact ⟨g₂, visits_cons.mpr ⟨g₁, hs, h₁⟩, h₂⟩

theorem Visits.of_bare {g g' : Graph Fingerprint} {p : Fingerprint} {sites : List Site}
    (h : Visits g p (sites.map Site.bare) g') : Visits g p sites g' := by
  generalize hb : sites.map Site.bare = bares at h
  induction h generalizing sites with
  | nil =>
    cases List.map_eq_nil_iff.mp hb
    exact .nil
  | seen hf hv _ ih =>
    obtain ⟨s, rest, rfl, rfl, hrest⟩ := List.map_eq_cons_iff.mp hb
    rw [Site.fingerprint?_bare] at hf
    exact .seen hf hv (ih hrest)
  | entered hf hv he _ _ ihb ih =>
    obtain ⟨s, rest, rfl, rfl, hrest⟩ := List.map_eq_cons_iff.mp hb
    rw [Site.fingerprint?_bare] at hf
    obtain ⟨below, he', hbelow⟩ := Site.expand_bare_eq_ok_iff.mp he
    exact .entered hf hv he' (ihb hbelow.symm) (ih hrest)

theorem Visits.edges_extend {g g' : Graph Fingerprint} {p : Fingerprint} {sites : List Site}
    (h : Visits g p sites g') : g.edges.toList <+: g'.edges.toList := by
  have linked : ∀ (g : Graph Fingerprint) (p f : Fingerprint),
      g.edges.toList <+: (g.link p f).edges.toList := by
    intro g p f
    rw [link_edges, Array.toList_push]
    exact List.prefix_append _ _
  induction h with
  | nil => exact List.prefix_rfl
  | seen _ _ _ ih => exact (linked _ _ _).trans ih
  | entered _ _ _ _ _ ihb ih => exact (linked _ _ _).trans (ihb.trans ih)

end Graph

namespace Walk

variable {tree : SyntaxTree} {w u : Walk} {p f : Fingerprint} {s : Site}
  {rest : List (Fingerprint × Site)}

theorem Faithful.exists_cached (h : w.Faithful tree) (hp : w.pending = (p, s) :: rest)
    (hf : s.fingerprint? = some f) : ∃ cache, s.cached w.cache = (some f, cache) := by
  rcases hc : s.cached w.cache with ⟨x, cache⟩
  rw [(h.cached hp hc).2.1] at hf
  exact ⟨cache, hf ▸ rfl⟩

theorem Faithful.step_seen (h : w.Faithful tree) (hp : w.pending = (p, s) :: rest)
    (hf : s.fingerprint? = some f) (hv : f ∈ w.graph.vertices) :
    ∃ cache, w.step = .next ⟨w.graph.link p f, cache, rest⟩ := by
  obtain ⟨cache, hc⟩ := h.exists_cached hp hf
  obtain ⟨graph, old, pending⟩ := w
  cases hp
  have hv' : f ∈ (graph.addEdge p f).vertices := hv
  refine ⟨cache, ?_⟩
  simp only [step, hc]
  rw [if_pos hv', Graph.link_of_mem hv]

theorem Faithful.step_entered {below : List Site} (h : w.Faithful tree)
    (hp : w.pending = (p, s) :: rest) (hf : s.fingerprint? = some f) (hv : f ∉ w.graph.vertices)
    (he : s.expand = .ok below) :
    ∃ cache, w.step = .next ⟨w.graph.link p f, cache, below.map (f, ·) ++ rest⟩ := by
  obtain ⟨cache, hc⟩ := h.exists_cached hp hf
  obtain ⟨graph, old, pending⟩ := w
  cases hp
  have hv' : f ∉ (graph.addEdge p f).vertices := hv
  refine ⟨cache, ?_⟩
  simp only [step, hc, he]
  rw [if_neg hv']
  rfl

/-- The first entries of the stack are visited before the rest of it is looked at. -/
theorem Faithful.reaches_of_visits {g : Graph Fingerprint} {sites : List Site}
    (h : w.Faithful tree) (hp : w.pending = sites.map (p, ·) ++ rest)
    (hv : Graph.Visits w.graph p sites g) :
    ∃ u, w.Reaches u ∧ u.Faithful tree ∧ u.graph = g ∧ u.pending = rest := by
  generalize hg : w.graph = graph at hv
  induction hv generalizing w rest with
  | nil => exact ⟨w, .refl, h, hg, hp⟩
  | seen hf hm _ ih =>
    subst hg
    obtain ⟨cache, hstep⟩ := h.step_seen hp hf hm
    obtain ⟨u, hu, hrest⟩ := ih (h.next hstep) rfl rfl
    exact ⟨u, .head hstep hu, hrest⟩
  | entered hf hm he _ _ ihb ih =>
    subst hg
    obtain ⟨cache, hstep⟩ := h.step_entered hp hf hm he
    obtain ⟨v, hv, hvf, hvg, hvp⟩ := ihb (h.next hstep) rfl rfl
    obtain ⟨u, hu, hrest⟩ := ih hvf hvp hvg
    exact ⟨u, .head hstep (hv.trans hu), hrest⟩

theorem Reaches.run_eq (h : w.Reaches u) : w.run = u.run := by
  induction h with
  | refl => rfl
  | tail _ hs ih =>
    rw [ih, run]
    split
    · next hs' => rw [hs] at hs'; cases hs'
    · next hs' => rw [hs] at hs'; cases hs'
    · next hs' => rw [hs] at hs'; cases hs'; rfl

end Walk

/-- No place of the first file has the shape of one of the two files. -/
def SyntaxTree.Apart (tree tree' : SyntaxTree) : Prop :=
  ∀ s, tree.Meets s → s.shape? ≠ some tree.root.shape ∧ s.shape? ≠ some tree'.root.shape

section Append

variable {tree tree' : SyntaxTree} {xs : List Node} {y : Node}

theorem SyntaxTree.ExtrasLoose.apart (hl : tree.ExtrasLoose)
    (hitems : tree'.root.items = xs ++ [y])
    (hxs : tree.root.items.map Node.bare = xs.map Node.bare) : tree.Apart tree' := by
  intro s hs
  refine ⟨hl.shape?_ne (fun _ hn => Node.shape_mem_of_mem_items hn) hs, hl.shape?_ne ?_ hs⟩
  intro n hn
  obtain ⟨m, hm, hmn⟩ := List.mem_map.mp (hxs ▸ List.mem_map_of_mem hn)
  rw [← n.shape_bare, ← hmn, m.shape_bare]
  refine Node.shape_mem_of_mem_items ?_
  rw [hitems]
  exact List.mem_append_left _ hm

/-- The items that both files have lead to the same places. -/
theorem Site.ofFile_append {all : List Site} (hitems : tree'.root.items = xs ++ [y])
    (hxs : tree.root.items.map Node.bare = xs.map Node.bare)
    (hall : ofFile tree'.root = .ok all) :
    ∃ sites sites' place, ofFile tree.root = .ok sites ∧ ofItem y = .ok place ∧
      all = sites' ++ [place] ∧ sites'.map bare = sites.map bare := by
  rw [ofFile_eq_ok_iff, hitems, List.mapM_append] at hall
  obtain ⟨sites', hs', hall⟩ := bind_eq_ok_iff.mp hall
  obtain ⟨last, hlast, hall⟩ := bind_eq_ok_iff.mp hall
  rw [List.mapM_cons, List.mapM_nil] at hlast
  obtain ⟨place, hplace, hlast⟩ := bind_eq_ok_iff.mp hlast
  cases hlast
  cases hall
  have hb : (tree.root.items.mapM ofItem).map (List.map bare) = .ok (sites'.map bare) := by
    rw [← mapM_ofItem_bare, hxs, mapM_ofItem_bare, hs']
    rfl
  obtain ⟨sites, hs, hbare⟩ := map_eq_ok_iff.mp hb
  exact ⟨sites, sites', place, ofFile_eq_ok_iff.mpr hs, hplace, rfl, hbare.symm⟩

end Append

namespace Graph

variable {tree tree' : SyntaxTree} {g' : Graph Fingerprint} {xs : List Node} {y : Node}

theorem mirrors_start (r r' : Fingerprint) (n n' : Int) :
    Mirrors (moved r r') ((empty.setRoot r).setComponents n)
      ((empty.setRoot r').setComponents n') := by
  refine ⟨rfl, ?_⟩
  change [r'] = [r].map (moved r r')
  rw [List.map_singleton, moved_self]

/-- A file with one more item at its end. If its graph can be built then so can that of the
shorter file. When only the new item is left on the stack, the walk of the longer file has
built the graph of the shorter one with the file's vertex renamed, and from there
on the complexity grows by two and by the places that are revisited. -/
theorem complexity_of_appended_item (hitems : tree'.root.items = xs ++ [y])
    (hxs : tree.root.items.map Node.bare = xs.map Node.bare)
    (hi : Set.InjOn Shape.fingerprint (tree.shapes ∪ tree'.shapes))
    (ha : tree.ExtrasLoose ∨ tree.Apart tree') (h' : ofFile tree' = .ok g') :
    ∃ g, ofFile tree = .ok g ∧ ∃ sites place w, Site.ofItem y = .ok place ∧
      Site.ofFile tree'.root = .ok (sites ++ [place]) ∧
      (Walk.start tree' (sites ++ [place])).Reaches w ∧
      w.pending = [(tree'.root.fingerprint, place)] ∧
      Mirrors (moved tree.root.fingerprint tree'.root.fingerprint) g w.graph ∧
      w.graph.edges.toList <+: g'.edges.toList ∧
      g'.complexity = g.complexity + 2 + w.revisits ∧ g.complexity + 2 ≤ g'.complexity := by
  have hapart : tree.Apart tree' := ha.elim (fun hl => hl.apart hitems hxs) id
  obtain ⟨all, hall, hv⟩ := ofFile_eq_ok_iff_visits.mp h'
  obtain ⟨sites, sites', place, hs, hplace, rfl, hbare⟩ := Site.ofFile_append hitems hxs hall
  obtain ⟨g₁, hv₁, hv₂⟩ := visits_append hv
  -- the graph of the shorter file
  have hsub : tree.shapes ⊆ tree.shapes ∪ tree'.shapes := Set.subset_union_left
  have hne := SyntaxTree.fingerprint?_ne hi hsub (.inl (.inl rfl)) hs fun s hs => (hapart s hs).1
  have hne' := SyntaxTree.fingerprint?_ne hi hsub (.inr (.inl rfl)) hs fun s hs => (hapart s hs).2
  rw [Node.fingerprint_shape] at hne hne'
  have hbared := hv₁.bare
  rw [hbare] at hbared
  obtain ⟨g, hg, hm⟩ := hbared.mirrored (mirrors_start tree.root.fingerprint
    tree'.root.fingerprint tree.root.items.length tree'.root.items.length) (moved_self _ _).symm
    fun a ham t ht => ⟨hne a ham t ht, hne' a ham t ht⟩
  have hof : ofFile tree = .ok g := ofFile_of_visits rfl hs hg.of_bare
  -- the walk of the longer file
  have hstart := Walk.faithful_start hall
  obtain ⟨w, hw, hwf, hwg, hwp⟩ := hstart.reaches_of_visits (List.map_append ..) hv₁
  obtain ⟨all', last, hall', hrun, hlast⟩ := Builder.build_eq_ok_iff.mp h'
  rw [hall] at hall'
  cases hall'
  rw [hw.run_eq] at hrun
  have hcounts := hwf.counts_run hrun
  rw [hlast, hwg, hm.edgeCount_eq, hm.nodeCount_eq] at hcounts
  have hlen : (tree'.root.items.length : Int) = tree.root.items.length + 1 := by
    have := congrArg List.length hxs
    rw [List.length_map, List.length_map] at this
    rw [hitems, List.length_append, this]
    rfl
  have hc : g'.complexity = g.complexity + 2 + w.revisits := by
    rw [complexity, complexity, (counts_ofFile h').1, (counts_ofFile hof).1, hlen]
    omega
  refine ⟨g, hof, sites', place, w, hplace, hall, hw, hwp, hwg ▸ hm, ?_, hc, by omega⟩
  rw [hwg]
  exact hv₂.edges_extend

/-- `struct S;` -/
def singleStruct : SyntaxTree where
  root := .phrase 0 "source_file" "" "struct S;" [unitStruct 1]
  distinct := by decide +kernel

def structLines : List ShapeLine :=
  repeatedStructLines ++ [⟨"source_file", "", [3], 0x9666306b083ec6a0⟩]

theorem structLines_correct : ShapeLine.allCorrect [] structLines = true := by
  decide +kernel

theorem shapes_of_structs (places : List Nat)
    (hs : Site.ofFile tree.root = .ok (places.map fun i => .item (unitStruct i))) :
    tree.shapes ⊆ {tree.root.shape, (unitStruct 0).shape} := by
  rintro x (rfl | ⟨s, ⟨sites, hs', a, ha, hm⟩, hx⟩)
  · exact .inl rfl
  · rw [hs] at hs'
    cases hs'
    obtain ⟨i, _, rfl⟩ := List.mem_map.mp ha
    rcases (Site.meets_iff rfl).mp hm with rfl | ⟨b, hb, _⟩
    · exact .inr (Option.some.inj hx).symm
    · cases hb

theorem injOn_shapes_structs :
    Set.InjOn Shape.fingerprint (singleStruct.shapes ∪ repeatedStruct.shapes) := by
  have hall : Set.InjOn Shape.fingerprint
      {x | ∃ n ∈ [singleStruct.root, repeatedStruct.root, unitStruct 0], n.shape = x} :=
    Node.injOn_shapes [5, 4, 3] structLines_correct (by decide) rfl
  have hone : singleStruct.shapes ⊆ {singleStruct.root.shape, (unitStruct 0).shape} :=
    shapes_of_structs [1] rfl
  have htwo : repeatedStruct.shapes ⊆ {repeatedStruct.root.shape, (unitStruct 0).shape} :=
    shapes_of_structs [1, 5] rfl
  refine hall.mono (Set.union_subset (hone.trans ?_) (htwo.trans ?_))
  · rintro x (rfl | rfl)
    · exact ⟨singleStruct.root, by simp, rfl⟩
    · exact ⟨unitStruct 0, by simp, rfl⟩
  · rintro x (rfl | rfl)
    · exact ⟨repeatedStruct.root, by simp, rfl⟩
    · exact ⟨unitStruct 0, by simp, rfl⟩

theorem counts_structs : ∃ g g', ofFile singleStruct = .ok g ∧ ofFile repeatedStruct = .ok g' ∧
    g.complexity = 1 ∧ g'.complexity = 4 := by
  have hone : singleStruct.root.fingerprint = ⟨0x9666306b083ec6a0⟩ :=
    Node.fingerprint_of_line (i := 5) structLines_correct rfl rfl
  have htwo : repeatedStruct.root.fingerprint = ⟨0xe051387582cabef9⟩ :=
    Node.fingerprint_of_line (i := 4) structLines_correct rfl rfl
  have hs : ∀ i, (unitStruct i).fingerprint = ⟨0x7c0e011771628e86⟩ :=
    fun _ => Node.fingerprint_of_line (i := 3) structLines_correct rfl rfl
  have hg := ofFile_of_visits hone rfl
    (.entered (congrArg some (hs 1)) (by decide) rfl .nil .nil)
  have hg' := ofFile_of_visits htwo rfl
    (.entered (congrArg some (hs 1)) (by decide) rfl .nil
      (.seen (congrArg some (hs 5)) (by decide) .nil))
  exact ⟨_, _, hg, hg', by decide, by decide⟩

/-- The struct that is added is a revisit. -/
theorem complexity_of_second_struct :
    singleStruct.ExtrasLoose ∧
    Set.InjOn Shape.fingerprint (singleStruct.shapes ∪ repeatedStruct.shapes) ∧
    ∃ g g' w, ofFile singleStruct = .ok g ∧ ofFile repeatedStruct = .ok g' ∧
      (Walk.start repeatedStruct [.item (unitStruct 1), .item (unitStruct 5)]).Reaches w ∧
      w.pending = [(repeatedStruct.root.fingerprint, .item (unitStruct 5))] ∧
      g.complexity = 1 ∧ w.revisits = 1 ∧ g'.complexity = 4 := by
  have hl : singleStruct.ExtrasLoose := by decide +kernel
  have hitems : repeatedStruct.root.items = [unitStruct 1] ++ [unitStruct 5] := rfl
  obtain ⟨g, g', hg, hg', hc, hc'⟩ := counts_structs
  obtain ⟨g₁, hg₁, sites, place, w, hplace, hsites, hw, hp, _, _, hsum, _⟩ :=
    complexity_of_appended_item (y := unitStruct 5) hitems rfl injOn_shapes_structs (.inl hl) hg'
  cases hg.symm.trans hg₁
  cases hplace
  rw [← Except.ok.inj hsites] at hw
  exact ⟨hl, injOn_shapes_structs, g, g', w, hg, hg', hw, hp, hc, by omega, hc'⟩

end Graph

end RustMetrics
