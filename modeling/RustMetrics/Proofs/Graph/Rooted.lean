import RustMetrics.Proofs.Graph.Walk

/-! A graph grows from its root. An edge is added before its child is registered,
and a parent is remembered long before its edge is added, so the invariant of a
walk speaks about the pending entries too: their parents are registered. Nothing
here depends on what the fingerprints are, so a collision changes nothing. -/

namespace RustMetrics

namespace Graph

variable {V : Type} {g : Graph V} {r parent child : V}

/-- An edge leads from one vertex to another. -/
def Leads (g : Graph V) (a b : V) : Prop := ⟨a, b⟩ ∈ g.edges

/-- The root is registered, edges join registered vertices, and every registered
vertex can be reached from the root. -/
structure Rooted (g : Graph V) (r : V) : Prop where
  root : g.root = some r
  registered : r ∈ g.vertices
  joined : ∀ e ∈ g.edges, e.parent ∈ g.vertices ∧ e.child ∈ g.vertices
  reached : ∀ v ∈ g.vertices, Relation.ReflTransGen g.Leads r v

variable [DecidableEq V]

theorem leads_link {a b : V} : (g.link parent child).Leads a b ↔
    g.Leads a b ∨ a = parent ∧ b = child := by
  simp [Leads]

theorem Rooted.link (h : g.Rooted r) (hp : parent ∈ g.vertices) (child : V) :
    (g.link parent child).Rooted r := by
  refine ⟨(link_root g parent child).trans h.root, mem_link.mpr (.inr h.registered), ?_, ?_⟩
  · intro e he
    rw [link_edges, Array.mem_push] at he
    rcases he with he | rfl
    · obtain ⟨h₁, h₂⟩ := h.joined e he
      exact ⟨mem_link.mpr (.inr h₁), mem_link.mpr (.inr h₂)⟩
    · exact ⟨mem_link.mpr (.inr hp), mem_link.mpr (.inl rfl)⟩
  · -- paths of the smaller graph are paths of the larger one; the new edge ends at `child`
    have old : ∀ v ∈ g.vertices, Relation.ReflTransGen (g.link parent child).Leads r v :=
      fun v hv => (h.reached v hv).lift id fun a b hab => leads_link.mpr (.inl hab)
    intro v hv
    rcases mem_link.mp hv with rfl | hv
    · exact (old parent hp).tail (leads_link.mpr (.inr ⟨rfl, rfl⟩))
    · exact old v hv

theorem rooted_setRoot (r : V) (n : Int) : ((empty.setRoot r).setComponents n).Rooted r := by
  have hv : ((empty.setRoot r).setComponents n).vertices = [r] := rfl
  refine ⟨rfl, by simp [hv], ?_, ?_⟩
  · intro e he
    exact absurd he (Array.not_mem_empty e)
  · intro v hv'
    rw [hv, List.mem_singleton] at hv'
    exact hv' ▸ .refl

end Graph

namespace Walk

/-- The graph so far has grown from a vertex, and so will what is pending. -/
structure Grown (r : Fingerprint) (w : Walk) : Prop where
  graph : w.graph.Rooted r
  parents : ∀ p ∈ w.pending, p.1 ∈ w.graph.vertices

variable {r : Fingerprint} {w u : Walk}

theorem Grown.parent {parent : Fingerprint} {site : Site} {rest : List (Fingerprint × Site)}
    (h : w.Grown r) (hp : w.pending = (parent, site) :: rest) : parent ∈ w.graph.vertices :=
  h.parents (parent, site) (hp ▸ List.mem_cons_self)

theorem Grown.rest {parent f : Fingerprint} {site : Site} {rest : List (Fingerprint × Site)}
    (h : w.Grown r) (hp : w.pending = (parent, site) :: rest) :
    ∀ p ∈ rest, p.1 ∈ (w.graph.link parent f).vertices := by
  intro p hm
  exact Graph.mem_link.mpr (.inr (h.parents p (hp ▸ List.mem_cons_of_mem _ hm)))

theorem Grown.next (h : w.Grown r) (hs : w.step = .next u) : u.Grown r := by
  have hm := step_moves w
  rw [hs] at hm
  cases hm with
  | seen hp hc hv => exact ⟨h.graph.link (h.parent hp) _, h.rest hp⟩
  | entered hp hc hv he =>
    refine ⟨h.graph.link (h.parent hp) _, ?_⟩
    intro p hm
    rcases List.mem_append.mp hm with hm | hm
    · obtain ⟨s, _, rfl⟩ := List.mem_map.mp hm
      exact Graph.mem_link.mpr (.inl rfl)
    · exact h.rest hp p hm

theorem Grown.failed {e : Failure} (h : w.Grown r) (hs : w.step = .failed u e) :
    u.Grown r := by
  have hm := step_moves w
  rw [hs] at hm
  cases hm with
  | absent hp hc => exact ⟨h.graph, fun p hm => h.parents p (hp ▸ List.mem_cons_of_mem _ hm)⟩
  | refused hp hc hv he => exact ⟨h.graph.link (h.parent hp) _, h.rest hp⟩

theorem grown_start (tree : SyntaxTree) (sites : List Site) :
    (start tree sites).Grown tree.root.fingerprint := by
  have hg := Graph.rooted_setRoot tree.root.fingerprint tree.root.items.length
  refine ⟨hg, ?_⟩
  intro p hp
  obtain ⟨s, _, rfl⟩ := List.mem_map.mp hp
  exact hg.registered

theorem Passes.grown {tree : SyntaxTree} {sites : List Site} (h : (start tree sites).Passes w) :
    w.Grown tree.root.fingerprint :=
  h.preserves Grown.next Grown.failed (grown_start tree sites)

end Walk

namespace Builder

/-- The graph a builder shows after a build, finished or failed, is the graph of a
walk that the build passed. -/
theorem exists_passes_build (b : Builder) (tree : SyntaxTree) :
    ∃ sites w, (Walk.start tree sites).Passes w ∧ (b.build tree).1.graph = w.graph := by
  rw [build_eq]
  cases Site.ofFile tree.root with
  | error e => exact ⟨[], _, .inl .refl, rfl⟩
  | ok sites =>
    refine ⟨sites, _, Walk.passes_run _, ?_⟩
    rcases hr : (Walk.start tree sites).run with ⟨w, _ | e⟩ <;> simp [hr]

theorem graph_build_of_ok {b : Builder} {tree : SyntaxTree} {g : Graph Fingerprint}
    (h : (b.build tree).2 = .ok g) : (b.build tree).1.graph = g := by
  obtain ⟨sites, w, hs, hr, hg⟩ := build_eq_ok_iff.mp h
  simp [build_eq, hs, hr, hg]

/-- After every iteration of a build, in the graph it returns and in the one it leaves
behind when it fails, the file's vertex is registered, edges join registered
vertices, and every registered vertex is reached from the file's. -/
theorem build_rooted_throughout (b : Builder) (tree : SyntaxTree) :
    (∀ sites, Site.ofFile tree.root = .ok sites →
      ∀ w, (Walk.start tree sites).Passes w → w.graph.Rooted tree.root.fingerprint) ∧
    (b.build tree).1.graph.Rooted tree.root.fingerprint ∧
    ∀ g, (b.build tree).2 = .ok g → g.Rooted tree.root.fingerprint := by
  have left : (b.build tree).1.graph.Rooted tree.root.fingerprint := by
    obtain ⟨sites, w, hw, hg⟩ := exists_passes_build b tree
    exact hg ▸ hw.grown.graph
  refine ⟨?_, left, ?_⟩
  · intro sites _ w hw
    exact hw.grown.graph
  · intro g hg
    exact graph_build_of_ok hg ▸ left

end Builder

end RustMetrics
