import RustMetrics.Proofs.Fingerprint.Shape
import RustMetrics.Proofs.Graph.Visits

/-! The complexity of a file counts revisits. Every place that is taken off the stack
adds an edge, and a vertex too unless its vertex was registered before; so edges
and vertices differ by the places that were revisited, and by the file's own
vertex, which no edge was added for. -/

namespace RustMetrics

namespace Graph

variable {V : Type} [DecidableEq V] {g : Graph V} {parent child : V}

theorem edgeCount_link (g : Graph V) (parent child : V) :
    (g.link parent child).edgeCount = g.edgeCount + 1 := by
  rw [edgeCount, link_edges, Array.size_push, edgeCount]

theorem nodeCount_link_of_mem (h : child ∈ g.vertices) :
    (g.link parent child).nodeCount = g.nodeCount := by
  rw [nodeCount, link_vertices_of_mem h, nodeCount]

theorem nodeCount_link_of_notMem (h : child ∉ g.vertices) :
    (g.link parent child).nodeCount = g.nodeCount + 1 := by
  rw [nodeCount, link_vertices_of_notMem h, List.length_cons, nodeCount]

end Graph

namespace Walk

/-- The walks at which a place is taken off the stack, from the first to the last. -/
def taken (w : Walk) : List Walk :=
  match _h : w.step with
  | .done _ => []
  | .failed _ _ => [w]
  | .next u => w :: taken u
termination_by w.weight
decreasing_by exact weight_step_lt _h

/-- The vertex of the place to be taken next is registered already. -/
def revisiting (w : Walk) : Bool :=
  match w.pending with
  | [] => false
  | (_, site) :: _ =>
    match site.fingerprint? with
    | none => false
    | some f => f ∈ w.graph.vertices

/-- How many places a walk takes whose vertex is registered already. -/
def revisits (w : Walk) : Nat := w.taken.countP revisiting

variable {tree : SyntaxTree} {w u : Walk}

theorem taken_next (h : w.step = .next u) : w.taken = w :: u.taken := by
  rw [taken]
  split
  · next h' => rw [h] at h'; cases h'
  · next h' => rw [h] at h'; cases h'
  · next h' => rw [h] at h'; cases h'; rfl

theorem taken_done (h : w.step = .done u) : w.taken = [] := by
  rw [taken]
  split
  · rfl
  · next h' => rw [h] at h'; cases h'
  · next h' => rw [h] at h'; cases h'

theorem revisits_next (h : w.step = .next u) :
    w.revisits = u.revisits + if w.revisiting then 1 else 0 := by
  rw [revisits, taken_next h, List.countP_cons, revisits]

theorem Faithful.revisiting_eq {parent f : Fingerprint} {site : Site}
    {rest : List (Fingerprint × Site)} {cache : Cache} (h : w.Faithful tree)
    (hp : w.pending = (parent, site) :: rest) (hc : site.cached w.cache = (some f, cache)) :
    w.revisiting = decide (f ∈ w.graph.vertices) := by
  rw [revisiting, hp]
  simp only [(h.cached hp hc).2.1]

/-- One iteration adds an edge, and a vertex or a revisit. -/
theorem Faithful.counts_next (h : w.Faithful tree) (hs : w.step = .next u) :
    u.graph.edgeCount + w.graph.nodeCount + u.revisits =
      w.graph.edgeCount + u.graph.nodeCount + w.revisits := by
  rw [revisits_next hs]
  have hm := step_moves w
  rw [hs] at hm
  cases hm with
  | seen hp hc hv =>
    rw [h.revisiting_eq hp hc, Graph.edgeCount_link, Graph.nodeCount_link_of_mem hv]
    simp only [hv, decide_true, if_true]
    omega
  | entered hp hc hv he =>
    rw [h.revisiting_eq hp hc, Graph.edgeCount_link, Graph.nodeCount_link_of_notMem hv]
    simp only [hv, decide_false, Bool.false_eq_true, if_false]
    omega

/-- Over a whole run, the edges added are the vertices added and the revisits. -/
theorem Faithful.counts_run (h : w.Faithful tree) (hr : w.run = (u, none)) :
    u.graph.edgeCount + w.graph.nodeCount =
      w.graph.edgeCount + u.graph.nodeCount + w.revisits := by
  fun_induction run w with
  | case1 w v hs =>
    have hm := step_moves w
    rw [hs] at hm
    cases hm
    cases hr
    rw [revisits, taken_done hs, List.countP_nil]
    omega
  | case2 w v e hs => cases hr
  | case3 w v hs ih =>
    have h₁ := h.counts_next hs
    have h₂ := ih (h.next hs) hr
    omega

theorem components_run (w : Walk) : w.run.1.graph.components = w.graph.components := by
  refine (passes_run w).preserves (P := fun u => u.graph.components = w.graph.components)
    ?_ ?_ rfl
  · intro s t hs hstep
    have hm := step_moves s
    rw [hstep] at hm
    cases hm <;> rw [Graph.link_components, hs]
  · intro s t e hs hstep
    have hm := step_moves s
    rw [hstep] at hm
    cases hm with
    | absent => exact hs
    | refused => rw [Graph.link_components, hs]

end Walk

/-- How many places of a file the walk takes whose vertex is registered already. -/
def SyntaxTree.revisits (tree : SyntaxTree) : Nat :=
  match Site.ofFile tree.root with
  | .error _ => 0
  | .ok sites => (Walk.start tree sites).revisits

namespace Graph

variable {tree : SyntaxTree} {g : Graph Fingerprint}

theorem counts_ofFile (h : ofFile tree = .ok g) :
    g.components = tree.root.items.length ∧ g.edgeCount + 1 = g.nodeCount + tree.revisits := by
  obtain ⟨sites, w, hs, hr, rfl⟩ := Builder.build_eq_ok_iff.mp h
  constructor
  · have hc := Walk.components_run (Walk.start tree sites)
    rw [hr] at hc
    exact hc
  · have hc := (Walk.faithful_start hs).counts_run hr
    have he : (Walk.start tree sites).graph.edgeCount = 0 := rfl
    have hn : (Walk.start tree sites).graph.nodeCount = 1 := rfl
    rw [he, hn] at hc
    rw [SyntaxTree.revisits, hs]
    simp only
    omega

theorem revisits_of_items_nil (h : tree.root.items = []) : tree.revisits = 0 := by
  have hs : Site.ofFile tree.root = .ok [] := by rw [Site.ofFile, h]; rfl
  rw [SyntaxTree.revisits, hs]
  exact congrArg (List.countP Walk.revisiting) (Walk.taken_done rfl)

/-- The complexity of a file with `P` items is `2P - 1` and one for each revisit. So
there are never fewer edges than vertices without the file's own, and the
complexity is negative, and then `-1`, exactly for a file without items. -/
theorem complexity_counts_revisits (h : ofFile tree = .ok g) :
    g.components = tree.root.items.length ∧
    g.complexity = 2 * tree.root.items.length - 1 + tree.revisits ∧
    (g.nodeCount : Int) - 1 ≤ g.edgeCount ∧
    2 * (tree.root.items.length : Int) - 1 ≤ g.complexity ∧
    (g.complexity < 0 ↔ tree.root.items = []) ∧
    (g.complexity = -1 ↔ tree.root.items = []) := by
  obtain ⟨hc, he⟩ := counts_ofFile h
  have hm : g.complexity = 2 * tree.root.items.length - 1 + tree.revisits := by
    rw [complexity, hc]
    omega
  have hz : tree.root.items = [] → g.complexity = -1 := by
    intro hi
    rw [hm, revisits_of_items_nil hi, hi]
    rfl
  have hp : tree.root.items ≠ [] → 0 < g.complexity := by
    intro hi
    have := List.length_pos_iff.mpr hi
    omega
  refine ⟨hc, hm, by omega, by omega, ⟨?_, ?_⟩, ⟨?_, hz⟩⟩
  · intro hlt
    by_contra hi
    have := hp hi
    omega
  · intro hi
    have := hz hi
    omega
  · intro heq
    by_contra hi
    have := hp hi
    omega

/-- `struct S;` -/
def unitStruct (i : Nat) : Node :=
  .phrase i "struct_item" "" "struct S;"
    [.token (i + 1) "struct", .phrase (i + 2) "type_identifier" "name" "S" [], .token (i + 3) ";"]

/-- `struct S; struct S;` -/
def repeatedStruct : SyntaxTree where
  root := .phrase 0 "source_file" "" "struct S; struct S;" [unitStruct 1, unitStruct 5]
  distinct := by decide +kernel

def repeatedStructLines : List ShapeLine :=
  [⟨"struct", "struct", [], 0xbcd47903aa716256⟩, ⟨"type_identifier", "S", [], 0xf2e3f608957a77a8⟩,
    ⟨";", ";", [], 0x083a4c4b079a245c⟩, ⟨"struct_item", "", [0, 1, 2], 0x7c0e011771628e86⟩,
    ⟨"source_file", "", [3, 3], 0xe051387582cabef9⟩]

/-- The second of two equal items is a revisit. -/
theorem complexity_of_repeatedStruct : ∃ g, ofFile repeatedStruct = .ok g ∧
    g.nodeCount = 2 ∧ g.edgeCount = 2 ∧ g.components = 2 ∧ repeatedStruct.revisits = 1 ∧
    g.complexity = 4 := by
  have hl : ShapeLine.allCorrect [] repeatedStructLines = true := by decide +kernel
  have hr : repeatedStruct.root.fingerprint = ⟨0xe051387582cabef9⟩ :=
    Node.fingerprint_of_line (i := 4) hl rfl rfl
  have hi : ∀ i, (unitStruct i).fingerprint = ⟨0x7c0e011771628e86⟩ :=
    fun _ => Node.fingerprint_of_line (i := 3) hl rfl rfl
  have hs : Site.ofFile repeatedStruct.root =
      .ok [.item (unitStruct 1), .item (unitStruct 5)] := rfl
  obtain ⟨g, hg, hn, he⟩ : ∃ g, ofFile repeatedStruct = .ok g ∧ g.nodeCount = 2 ∧
      g.edgeCount = 2 :=
    ⟨_, ofFile_of_visits hr hs (.entered (congrArg some (hi 1)) (by decide) rfl .nil
      (.seen (congrArg some (hi 5)) (by decide) .nil)), by decide, by decide⟩
  obtain ⟨hc, hm, _⟩ := complexity_counts_revisits hg
  have hitems : repeatedStruct.root.items.length = 2 := rfl
  rw [hitems] at hc hm
  have h4 : g.complexity = 4 := by
    rw [complexity, hn, he, hc]
    rfl
  exact ⟨g, hg, hn, he, hc, by omega, h4⟩

end Graph

end RustMetrics
