import RustMetrics.Graph.Basic
import RustMetrics.Graph.Site
import RustMetrics.Node.Listing

/-! The graph of a file. Each place that the walk visits becomes a vertex, named by
its fingerprint, and each link it follows becomes an edge. A place whose
fingerprint was seen before still gets its edge, but is not entered again.

Places to visit wait on a stack with the vertex they were reached from. Each
step takes one off and puts on it what that place leads to, which is smaller,
so the walk ends. A walk that fails stops with the graph it has built so far. -/

namespace RustMetrics

structure Walk where
  graph : Graph Fingerprint
  cache : Cache
  pending : List (Fingerprint × Site)

namespace Walk

inductive Step where
  | done (w : Walk)
  | next (w : Walk)
  | failed (w : Walk) (e : Failure)

/-- Visits the first pending place. -/
def step : Walk → Step
  | ⟨graph, cache, []⟩ => .done ⟨graph, cache, []⟩
  | ⟨graph, cache, (parent, site) :: rest⟩ =>
    match site.cached cache with
    | (none, cache) => .failed ⟨graph, cache, rest⟩ (.absentNode .children)
    | (some f, cache) =>
      let graph := graph.addEdge parent f
      if f ∈ graph.vertices then .next ⟨graph, cache, rest⟩
      else match site.expand with
        | .error e => .failed ⟨graph.register f, cache, rest⟩ e
        | .ok sites => .next ⟨graph.register f, cache, sites.map (f, ·) ++ rest⟩

/-- The places that the walk can still meet. -/
def weight (w : Walk) : Nat := Site.sizes (w.pending.map Prod.snd)

theorem fingerprint?_isSome_of_cached {cache cache' : Cache} {s : Site} {f : Fingerprint}
    (h : s.cached cache = (some f, cache')) : ∃ g, s.fingerprint? = some g := by
  cases s with
  | absent => simp [Site.cached] at h
  | item n => exact ⟨_, rfl⟩
  | function n => exact ⟨_, rfl⟩
  | expression n => exact ⟨_, rfl⟩
  | word n => exact ⟨_, rfl⟩
  | imports t => exact ⟨_, rfl⟩

theorem sizes_append (ss ts : List Site) :
    Site.sizes (ss ++ ts) = Site.sizes ss + Site.sizes ts := by
  induction ss with
  | nil => simp
  | cons s ss ih =>
    rw [List.cons_append, Site.sizes_cons, ih, Site.sizes_cons, Nat.add_assoc]

theorem weight_step_lt {w w' : Walk} (h : w.step = .next w') : w'.weight < w.weight := by
  obtain ⟨graph, cache, pending⟩ := w
  cases pending with
  | nil => simp [step] at h
  | cons head rest =>
    obtain ⟨parent, site⟩ := head
    simp only [step] at h
    split at h
    · cases h
    · next f cache' hc =>
      obtain ⟨g, hg⟩ := fingerprint?_isSome_of_cached hc
      have hpos := Site.size_pos hg
      split at h
      · cases h
        simp only [weight, List.map_cons, Site.sizes_cons]
        omega
      · split at h
        · cases h
        · next sites he =>
          cases h
          have hlt := Site.sizes_expand_lt hg he
          have hm : (sites.map (f, ·)).map Prod.snd = sites := by
            simp [Function.comp_def]
          simp only [weight, List.map_append, List.map_cons, hm, sizes_append, Site.sizes_cons]
          omega

/-- Visits all pending places, or stops at a failure. -/
def run (w : Walk) : Walk × Option Failure :=
  match _h : w.step with
  | .done w => (w, none)
  | .failed w e => (w, some e)
  | .next w => run w
termination_by w.weight
decreasing_by exact weight_step_lt _h

end Walk

/-- The places of a file's items. They are prepared from the last to the first, so
of several bad imports the last is reported. -/
def Site.ofFile (root : Node) : Except Failure (List Site) :=
  (root.items.reverse.mapM Site.ofItem).map List.reverse

/-- Builds the graphs of files one after another and shows the latest one, also
after a failure. -/
structure Builder where
  graph : Graph Fingerprint
  cache : Cache

namespace Builder

def new : Builder := ⟨.empty, .empty⟩

/-- Builds the graph of a file. Nothing of an earlier file is kept: indices name
nodes only within one tree. -/
def build (_ : Builder) (tree : SyntaxTree) : Builder × Except Failure (Graph Fingerprint) :=
  let (f, cache) := Cache.empty.ofNode tree.root
  let graph := (Graph.empty.setRoot f).setComponents tree.root.items.length
  match Site.ofFile tree.root with
  | .error e => (⟨graph, cache⟩, .error e)
  | .ok sites =>
    match Walk.run ⟨graph, cache, sites.map (f, ·)⟩ with
    | (w, none) => (⟨w.graph, w.cache⟩, .ok w.graph)
    | (w, some e) => (⟨w.graph, w.cache⟩, .error e)

end Builder

/-- The graph of a file. -/
def Graph.ofFile (tree : SyntaxTree) : Except Failure (Graph Fingerprint) :=
  (Builder.new.build tree).2

end RustMetrics
