import Mathlib.Logic.Relation
import RustMetrics.Proofs.Graph.Site

/-! The steps of a walk. A step changes the graph in one way only: it links the
vertex of the first pending place to its parent, registering it if it is new.
`step_moves` says all that a step can do, and what a walk keeps is read off from
it; the walks a file's build goes through are those that `Passes` leads to. -/

namespace RustMetrics

namespace Graph

variable {V : Type} [DecidableEq V]

/-- An edge, after which its child is registered. -/
def link (g : Graph V) (parent child : V) : Graph V := (g.addEdge parent child).register child

variable {g : Graph V} {parent child v : V}

@[simp] theorem link_edges (g : Graph V) (parent child : V) :
    (g.link parent child).edges = g.edges.push ⟨parent, child⟩ := by
  unfold link register
  split <;> rfl

@[simp] theorem link_root (g : Graph V) (parent child : V) :
    (g.link parent child).root = g.root := by
  unfold link register
  split <;> rfl

@[simp] theorem link_components (g : Graph V) (parent child : V) :
    (g.link parent child).components = g.components := by
  unfold link register
  split <;> rfl

theorem link_vertices_of_mem (h : child ∈ g.vertices) :
    (g.link parent child).vertices = g.vertices := by
  have : child ∈ (g.addEdge parent child).vertices := h
  rw [link, register, if_pos this]
  rfl

theorem link_vertices_of_notMem (h : child ∉ g.vertices) :
    (g.link parent child).vertices = child :: g.vertices := by
  have : child ∉ (g.addEdge parent child).vertices := h
  rw [link, register, if_neg this]
  rfl

@[simp] theorem mem_link : v ∈ (g.link parent child).vertices ↔ v = child ∨ v ∈ g.vertices := by
  by_cases h : child ∈ g.vertices
  · rw [link_vertices_of_mem h]
    exact ⟨Or.inr, fun hv => hv.elim (fun he => he ▸ h) id⟩
  · rw [link_vertices_of_notMem h, List.mem_cons]

theorem link_of_mem (h : child ∈ g.vertices) : g.link parent child = g.addEdge parent child := by
  have : child ∈ (g.addEdge parent child).vertices := h
  rw [link, register, if_pos this]

end Graph

namespace Walk

/-- All that a step can do. Whether a place is entered or not, its vertex is
linked to its parent. -/
inductive Moves (w : Walk) : Step → Prop
  | done : w.pending = [] → Moves w (.done w)
  | absent {parent site rest cache} :
      w.pending = (parent, site) :: rest → site.cached w.cache = (none, cache) →
      Moves w (.failed ⟨w.graph, cache, rest⟩ (.absentNode .children))
  | seen {parent site rest f cache} :
      w.pending = (parent, site) :: rest → site.cached w.cache = (some f, cache) →
      f ∈ w.graph.vertices → Moves w (.next ⟨w.graph.link parent f, cache, rest⟩)
  | refused {parent site rest f cache e} :
      w.pending = (parent, site) :: rest → site.cached w.cache = (some f, cache) →
      f ∉ w.graph.vertices → site.expand = .error e →
      Moves w (.failed ⟨w.graph.link parent f, cache, rest⟩ e)
  | entered {parent site rest f cache sites} :
      w.pending = (parent, site) :: rest → site.cached w.cache = (some f, cache) →
      f ∉ w.graph.vertices → site.expand = .ok sites →
      Moves w (.next ⟨w.graph.link parent f, cache, sites.map (f, ·) ++ rest⟩)

theorem step_moves (w : Walk) : w.Moves w.step := by
  obtain ⟨graph, cache, pending⟩ := w
  cases pending with
  | nil => exact .done rfl
  | cons head rest =>
    obtain ⟨parent, site⟩ := head
    simp only [step]
    split
    · next cache' hc => exact .absent rfl hc
    · next f cache' hc =>
      split
      · next hv =>
        have hv : f ∈ graph.vertices := hv
        rw [← Graph.link_of_mem hv]
        exact .seen rfl hc hv
      · next hv =>
        split
        · next e he => exact .refused rfl hc hv he
        · next sites he => exact .entered rfl hc hv he

/-- Walks that come after some finished iterations. -/
def Reaches : Walk → Walk → Prop := Relation.ReflTransGen fun u v => u.step = .next v

/-- Walks that come after some iterations, of which the last may have failed. -/
def Passes (w u : Walk) : Prop := w.Reaches u ∨ ∃ t e, w.Reaches t ∧ t.step = .failed u e

/-- What every iteration keeps holds of all walks that are passed. -/
theorem Passes.preserves {P : Walk → Prop} {w u : Walk} (h : w.Passes u)
    (hnext : ∀ {s t}, P s → s.step = .next t → P t)
    (hfailed : ∀ {s t e}, P s → s.step = .failed t e → P t) (hw : P w) : P u := by
  have reached : ∀ {t}, w.Reaches t → P t := by
    intro t ht
    induction ht with
    | refl => exact hw
    | tail _ hs ih => exact hnext ih hs
  rcases h with h | ⟨t, e, ht, hs⟩
  · exact reached h
  · exact hfailed (reached ht) hs

/-- A run stops at a walk that it passes. -/
theorem passes_run (w : Walk) : w.Passes w.run.1 := by
  fun_induction run w with
  | case1 w u h =>
    have hm := step_moves w
    rw [h] at hm
    cases hm
    exact .inl .refl
  | case2 w u e h => exact .inr ⟨w, e, .refl, h⟩
  | case3 w u h ih =>
    rcases ih with ih | ⟨t, e, ht, hs⟩
    · exact .inl (.head h ih)
    · exact .inr ⟨t, e, .head h ht, hs⟩

/-- The walk of a file before its first step. -/
def start (tree : SyntaxTree) (sites : List Site) : Walk where
  graph := (Graph.empty.setRoot tree.root.fingerprint).setComponents tree.root.items.length
  cache := (Cache.empty.ofNode tree.root).2
  pending := sites.map (tree.root.fingerprint, ·)

end Walk

namespace Builder

/-- A build is the run of a file's walk, whatever was built before. -/
theorem build_eq (b : Builder) (tree : SyntaxTree) :
    b.build tree =
      match Site.ofFile tree.root with
      | .error e => (⟨(Walk.start tree []).graph, (Walk.start tree []).cache⟩, .error e)
      | .ok sites =>
        match (Walk.start tree sites).run with
        | (w, none) => (⟨w.graph, w.cache⟩, .ok w.graph)
        | (w, some e) => (⟨w.graph, w.cache⟩, .error e) := by
  have hf := (Cache.ofNode_sound tree.root .empty (Cache.sound_empty tree)
    (Node.mem_preorder_self tree.root)).1
  rcases hc : Cache.empty.ofNode tree.root with ⟨f, cache⟩
  rw [hc] at hf
  subst hf
  unfold build Walk.start
  rewrite [hc]
  cases Site.ofFile tree.root <;> rfl

/-- A build returns exactly if the run of its walk ends without failure, and then it
returns the last graph of that run. -/
theorem build_eq_ok_iff {b : Builder} {tree : SyntaxTree} {g : Graph Fingerprint} :
    (b.build tree).2 = .ok g ↔
      ∃ sites w, Site.ofFile tree.root = .ok sites ∧
        (Walk.start tree sites).run = (w, none) ∧ w.graph = g := by
  rw [build_eq]
  cases hs : Site.ofFile tree.root with
  | error e => simp
  | ok sites =>
    rcases hr : (Walk.start tree sites).run with ⟨w, _ | e⟩
    · simp [hr]
    · simp [hr]

end Builder

end RustMetrics
