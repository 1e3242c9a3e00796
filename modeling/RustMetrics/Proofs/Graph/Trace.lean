import RustMetrics.Graph.Trace
import RustMetrics.Proofs.Graph.Walk

/-! The stack walk and the plain recursion build the same graph. Entries of the stack
have different parents, and those below the first belong to places that were
entered earlier; visiting all of them in turn, from the graph so far, is what
the walk still has to do. This holds at every step, with the same failure at the
same place, as long as the cache knows only the tree that is walked. -/

namespace RustMetrics

namespace Graph

variable {g : Graph Fingerprint} {parent f : Fingerprint} {site : Site}

theorem visit_absent (hf : site.fingerprint? = none) :
    g.visit parent site = .error (.absentNode .children) := by
  rw [visit]
  split
  · rfl
  · next h => rw [hf] at h; cases h

theorem visit_of_fingerprint? (hf : site.fingerprint? = some f) :
    g.visit parent site =
      if f ∈ g.vertices then .ok (g.addEdge parent f)
      else site.expand >>= fun sites =>
        sites.foldlM (fun g s => g.visit f s) (g.link parent f) := by
  rw [visit]
  split
  · next h => rw [hf] at h; cases h
  · next f' h =>
    rw [hf] at h
    cases h
    congr 1
    cases site.expand with
    | error e => rfl
    | ok sites =>
      change sites.attach.foldlM _ _ = _
      rw [List.foldlM_subtype (fun _ _ _ => rfl), List.unattach_attach]
      rfl

theorem visit_seen (hf : site.fingerprint? = some f) (hv : f ∈ g.vertices) :
    g.visit parent site = .ok (g.link parent f) := by
  rw [visit_of_fingerprint? hf, if_pos hv, link_of_mem hv]

theorem visit_refused {e : Failure} (hf : site.fingerprint? = some f) (hv : f ∉ g.vertices)
    (he : site.expand = .error e) : g.visit parent site = .error e := by
  rw [visit_of_fingerprint? hf, if_neg hv, he]
  rfl

theorem visit_entered {sites : List Site} (hf : site.fingerprint? = some f)
    (hv : f ∉ g.vertices) (he : site.expand = .ok sites) :
    g.visit parent site = sites.foldlM (fun g s => g.visit f s) (g.link parent f) := by
  rw [visit_of_fingerprint? hf, if_neg hv, he]
  rfl

end Graph

namespace Walk

/-- The cache is right about the tree, and the walk is still inside it. -/
structure Faithful (tree : SyntaxTree) (w : Walk) : Prop where
  cache : w.cache.Sound tree
  pending : ∀ p ∈ w.pending, p.2.Within tree

variable {tree : SyntaxTree} {w u : Walk}

theorem Faithful.cached {parent : Fingerprint} {site : Site} {rest : List (Fingerprint × Site)}
    {f : Option Fingerprint} {cache : Cache} (h : w.Faithful tree)
    (hp : w.pending = (parent, site) :: rest) (hc : site.cached w.cache = (f, cache)) :
    site.Within tree ∧ site.fingerprint? = f ∧ cache.Sound tree := by
  have hs : site.Within tree := h.pending (parent, site) (hp ▸ List.mem_cons_self)
  obtain ⟨hf, hcache⟩ := Site.cached_sound hs h.cache
  rw [hc] at hf hcache
  exact ⟨hs, hf.symm, hcache⟩

theorem Faithful.next (h : w.Faithful tree) (hs : w.step = .next u) : u.Faithful tree := by
  have hm := step_moves w
  rw [hs] at hm
  cases hm with
  | seen hp hc hv =>
    refine ⟨(h.cached hp hc).2.2, ?_⟩
    intro p hm
    exact h.pending p (hp ▸ List.mem_cons_of_mem _ hm)
  | entered hp hc hv he =>
    obtain ⟨hw, -, hcache⟩ := h.cached hp hc
    refine ⟨hcache, ?_⟩
    intro p hm
    rcases List.mem_append.mp hm with hm | hm
    · obtain ⟨s, hs, rfl⟩ := List.mem_map.mp hm
      exact hw.expand he s hs
    · exact h.pending p (hp ▸ List.mem_cons_of_mem _ hm)

theorem faithful_start {sites : List Site} (h : Site.ofFile tree.root = .ok sites) :
    (start tree sites).Faithful tree := by
  refine ⟨(Cache.ofNode_sound tree.root .empty (Cache.sound_empty tree)
    (Node.mem_preorder_self tree.root)).2, ?_⟩
  intro p hp
  obtain ⟨s, hs, rfl⟩ := List.mem_map.mp hp
  exact Site.within_ofFile h s hs

/-- What a run hands over. -/
def outcome : Walk × Option Failure → Except Failure (Graph Fingerprint)
  | (w, none) => .ok w.graph
  | (_, some e) => .error e

/-- Visiting what is pending, entry after entry. -/
def rest (w : Walk) : Except Failure (Graph Fingerprint) :=
  w.pending.foldlM (fun g p => g.visit p.1 p.2) w.graph

theorem rest_eq_of_pending {parent : Fingerprint} {site : Site}
    {entries : List (Fingerprint × Site)} (hp : w.pending = (parent, site) :: entries) :
    w.rest = w.graph.visit parent site >>= fun g =>
      entries.foldlM (fun g p => g.visit p.1 p.2) g := by
  rw [rest, hp, List.foldlM_cons]

theorem rest_next (h : w.Faithful tree) (hs : w.step = .next u) : w.rest = u.rest := by
  have hm := step_moves w
  rw [hs] at hm
  cases hm with
  | seen hp hc hv =>
    obtain ⟨-, hf, -⟩ := h.cached hp hc
    rw [rest_eq_of_pending hp, Graph.visit_seen hf hv]
    rfl
  | entered hp hc hv he =>
    -- the children stand before the rest of the stack, so they are visited first
    obtain ⟨-, hf, -⟩ := h.cached hp hc
    rw [rest_eq_of_pending hp, Graph.visit_entered hf hv he, rest, List.foldlM_append,
      List.foldlM_map]

theorem rest_failed {e : Failure} (h : w.Faithful tree) (hs : w.step = .failed u e) :
    w.rest = .error e := by
  have hm := step_moves w
  rw [hs] at hm
  cases hm with
  | absent hp hc =>
    obtain ⟨-, hf, -⟩ := h.cached hp hc
    rw [rest_eq_of_pending hp, Graph.visit_absent hf]
    rfl
  | refused hp hc hv he =>
    obtain ⟨-, hf, -⟩ := h.cached hp hc
    rw [rest_eq_of_pending hp, Graph.visit_refused hf hv he]
    rfl

/-- A run does what is pending, and fails where that fails. -/
theorem outcome_run (h : w.Faithful tree) : outcome w.run = w.rest := by
  fun_induction run w with
  | case1 w u hs =>
    have hm := step_moves w
    rw [hs] at hm
    cases hm with
    | done hp =>
      rw [rest, hp]
      rfl
  | case2 w u e hs => rw [rest_failed h hs, outcome]
  | case3 w u hs ih => rw [rest_next h hs, ih (h.next hs)]

theorem outcome_eq_ok_iff {r : Walk × Option Failure} {g : Graph Fingerprint} :
    outcome r = .ok g ↔ ∃ w, r = (w, none) ∧ w.graph = g := by
  rcases r with ⟨w, _ | e⟩ <;> simp [outcome]

theorem rest_start (tree : SyntaxTree) (sites : List Site) :
    (start tree sites).rest = sites.foldlM (fun g s => g.visit tree.root.fingerprint s)
      ((Graph.empty.setRoot tree.root.fingerprint).setComponents tree.root.items.length) := by
  rw [rest, start, List.foldlM_map]

end Walk

/-- A file's items, prepared and then visited, are its traced graph. -/
theorem Graph.traced_eq_ok_iff {tree : SyntaxTree} {g : Graph Fingerprint} :
    traced tree.root = .ok g ↔
      ∃ sites, Site.ofFile tree.root = .ok sites ∧ (Walk.start tree sites).rest = .ok g := by
  rw [traced]
  constructor
  · intro h
    cases hs : tree.root.items.mapM Site.ofItem with
    | error e => rw [hs] at h; cases h
    | ok sites =>
      rw [hs] at h
      exact ⟨sites, Site.ofFile_eq_ok_iff.mpr hs, Walk.rest_start tree sites ▸ h⟩
  · rintro ⟨sites, hs, h⟩
    rw [Site.ofFile_eq_ok_iff.mp hs]
    exact (Walk.rest_start tree sites).symm.trans h

namespace Builder

theorem build_eq_ok_iff_traced {b : Builder} {tree : SyntaxTree} {g : Graph Fingerprint} :
    (b.build tree).2 = .ok g ↔ Graph.traced tree.root = .ok g := by
  rw [build_eq_ok_iff, Graph.traced_eq_ok_iff]
  constructor
  · rintro ⟨sites, w, hs, hr, rfl⟩
    refine ⟨sites, hs, ?_⟩
    rw [← Walk.outcome_run (Walk.faithful_start hs), hr]
    rfl
  · rintro ⟨sites, hs, h⟩
    rw [← Walk.outcome_run (Walk.faithful_start hs)] at h
    obtain ⟨w, hr, hg⟩ := Walk.outcome_eq_ok_iff.mp h
    exact ⟨sites, w, hs, hr, hg⟩

/-- The builder after builds of several files, finished or failed. -/
def buildAll (b : Builder) (trees : List SyntaxTree) : Builder :=
  trees.foldl (fun b tree => (b.build tree).1) b

/-- Whatever was built before, a build returns exactly if the plain recursion gives a
graph, and then it returns that graph: edges in order, vertices, root and
components. -/
theorem build_after_any_builds (history : List SyntaxTree) (tree : SyntaxTree)
    (g : Graph Fingerprint) :
    ((new.buildAll history).build tree).2 = .ok g ↔ Graph.traced tree.root = .ok g :=
  build_eq_ok_iff_traced

end Builder

end RustMetrics
