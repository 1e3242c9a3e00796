import Mathlib.Data.Finset.Card
import RustMetrics.Graph.Session

/-! A graph is what its history makes it. The vertices are those that were registered or made the
root, the edges those that were added, in this order, and root and number of components are what
they were set to last. Each call keeps this, whoever made it and whatever else was done; what
is done to the sets of vertices that were handed out does not matter, and they in turn
do not follow the graph. The counts do not depend on the order of the calls. -/

namespace RustMetrics.Graph

variable {V : Type}

namespace Call

/-- The vertex that a call registers. -/
def vertex? : Call V → Option V
  | .change (.vertex v) => some v
  | .change (.root v) => some v
  | _ => none

def edge? : Call V → Option (Edge V)
  | .change (.edge parent child) => some ⟨parent, child⟩
  | _ => none

def root? : Call V → Option V
  | .change (.root v) => some v
  | _ => none

def components? : Call V → Option Int
  | .change (.components n) => some n
  | _ => none

/-- The copy that a call empties. -/
def cleared? : Call V → Option Nat
  | .clear copy => some copy
  | _ => none

end Call

theorem filterMap_concat {α β : Type} (f : α → Option β) (xs : List α) (x : α) :
    (xs ++ [x]).filterMap f = xs.filterMap f ++ (f x).toList := by
  rw [List.filterMap_append]
  cases h : f x <;> simp [h]

theorem getLast?_append_toList {α : Type} (xs : List α) (x : Option α) :
    (xs ++ x.toList).getLast? = x.or xs.getLast? := by
  cases x <;> simp

/-- The number of components that was set last. -/
def lastComponents (calls : List (Call V)) : Int :=
  (calls.filterMap Call.components?).getLast?.getD 0

/-- A graph as some calls have made it. -/
structure Records (calls : List (Call V)) (g : Graph V) : Prop where
  nodup : g.vertices.Nodup
  vertices : ∀ v, v ∈ g.vertices ↔ v ∈ calls.filterMap Call.vertex?
  edges : g.edges.toList = calls.filterMap Call.edge?
  root : g.root = (calls.filterMap Call.root?).getLast?
  components : g.components = lastComponents calls

theorem records_new : Records [] (Session.new : Session V).graph :=
  ⟨List.nodup_nil, fun _ => Iff.rfl, rfl, rfl, rfl⟩

variable [DecidableEq V] {g : Graph V} {s : Session V} {calls : List (Call V)}

@[simp] theorem edges_register (g : Graph V) (v : V) : (g.register v).edges = g.edges := by
  unfold register
  split <;> rfl

@[simp] theorem root_register (g : Graph V) (v : V) : (g.register v).root = g.root := by
  unfold register
  split <;> rfl

@[simp] theorem components_register (g : Graph V) (v : V) :
    (g.register v).components = g.components := by
  unfold register
  split <;> rfl

@[simp] theorem mem_register {v w : V} :
    w ∈ (g.register v).vertices ↔ w ∈ g.vertices ∨ v = w := by
  unfold register
  split
  · next hv =>
    constructor
    · exact .inl
    · rintro (hw | rfl)
      · exact hw
      · exact hv
  · simp [or_comm, eq_comm]

theorem nodup_register (h : g.vertices.Nodup) (v : V) : (g.register v).vertices.Nodup := by
  unfold register
  split
  · exact h
  · next hv => exact List.nodup_cons.mpr ⟨hv, h⟩

namespace Session

theorem nodup_call (h : s.graph.vertices.Nodup) (c : Call V) :
    (s.call c).2.graph.vertices.Nodup := by
  cases c with
  | change c =>
    cases c with
    | vertex v => exact nodup_register h v
    | root v => exact nodup_register h v
    | _ => exact h
  | _ => exact h

theorem mem_call (c : Call V) (v : V) :
    v ∈ (s.call c).2.graph.vertices ↔ v ∈ s.graph.vertices ∨ c.vertex? = some v := by
  cases c with
  | change c => cases c <;> simp [call, change, addEdge, setRoot, setComponents, Call.vertex?]
  | _ => simp [call, Call.vertex?]

theorem edges_call (c : Call V) :
    (s.call c).2.graph.edges.toList = s.graph.edges.toList ++ c.edge?.toList := by
  cases c with
  | change c => cases c <;> simp [call, change, addEdge, setRoot, setComponents, Call.edge?]
  | _ => simp [call, Call.edge?]

theorem root_call (c : Call V) : (s.call c).2.graph.root = c.root?.or s.graph.root := by
  cases c with
  | change c => cases c <;> simp [call, change, addEdge, setRoot, setComponents, Call.root?]
  | _ => simp [call, Call.root?]

theorem components_call (c : Call V) :
    (s.call c).2.graph.components = c.components?.getD s.graph.components := by
  cases c with
  | change c => cases c <;> simp [call, change, addEdge, setRoot, setComponents, Call.components?]
  | _ => simp [call, Call.components?]

end Session

/-- One more call. -/
theorem Records.call (h : Records calls s.graph) (c : Call V) :
    Records (calls ++ [c]) (s.call c).2.graph where
  nodup := Session.nodup_call h.nodup c
  vertices v := by
    rw [Session.mem_call, h.vertices, filterMap_concat, List.mem_append, Option.mem_toList]
  edges := by rw [Session.edges_call, h.edges, filterMap_concat]
  root := by rw [Session.root_call, h.root, filterMap_concat, getLast?_append_toList]
  components := by
    rw [Session.components_call, h.components, lastComponents, lastComponents, filterMap_concat,
      getLast?_append_toList, Option.getD_or]

theorem Records.run {before : List (Call V)} (h : Records before s.graph) (calls : List (Call V)) :
    Records (before ++ calls) (s.run calls).graph := by
  induction calls generalizing s before with
  | nil => rwa [List.append_nil]
  | cons c calls ih =>
    rw [List.append_cons]
    exact ih (h.call c)

namespace Session

theorem run_append (s : Session V) (calls more : List (Call V)) :
    s.run (calls ++ more) = (s.run calls).run more := by
  induction calls generalizing s with
  | nil => rfl
  | cons c calls ih => exact ih (s.call c).2

/-- A call is answered as the calls before it have left things. -/
theorem answers_append_cons (s : Session V) (before after : List (Call V)) (c : Call V) :
    (s.answers (before ++ c :: after))[before.length]? = some ((s.run before).call c).1 := by
  induction before generalizing s with
  | nil => rfl
  | cons b before ih => exact ih (s.call b).2

theorem length_copies_call (s : Session V) (c : Call V) :
    s.copies.length ≤ (s.call c).2.copies.length := by
  cases c with
  | change c => exact Nat.le_refl _
  | vertices => simp [call]
  | clear copy => simp [call]

theorem copies_call {k : Nat} (hk : k < s.copies.length) (c : Call V) :
    (s.call c).2.copies[k]? = if c.cleared? = some k then some [] else s.copies[k]? := by
  cases c with
  | change c => rfl
  | vertices => exact List.getElem?_append_left hk
  | clear copy =>
    show (s.copies.set copy [])[k]? = if some copy = some k then some [] else s.copies[k]?
    rw [List.getElem?_set]
    by_cases hcopy : copy = k
    · subst hcopy
      rw [if_pos rfl, if_pos hk, if_pos rfl]
    · rw [if_neg hcopy, if_neg (by simpa using hcopy)]

/-- A copy stays as it was until it is emptied, whatever becomes of the graph. -/
theorem copies_run {k : Nat} (hk : k < s.copies.length) (calls : List (Call V)) :
    (s.run calls).copies[k]? =
      if k ∈ calls.filterMap Call.cleared? then some [] else s.copies[k]? := by
  induction calls generalizing s with
  | nil => rfl
  | cons c calls ih =>
    rw [run, ih (Nat.lt_of_lt_of_le hk (s.length_copies_call c)), copies_call hk]
    by_cases hc : c.cleared? = some k
    · simp [hc]
    · cases hc' : c.cleared? with
      | none => simp [hc']
      | some l =>
        have hl : k ≠ l := by
          rintro rfl
          exact hc hc'
        simp [hc', hl, Ne.symm hl]

end Session

namespace Records

variable {calls' : List (Call V)} {g' : Graph V}

theorem nodeCount_eq (h : Records calls g) :
    g.nodeCount = (calls.filterMap Call.vertex?).toFinset.card := by
  have hset : g.vertices.toFinset = (calls.filterMap Call.vertex?).toFinset := by
    ext v
    rw [List.mem_toFinset, List.mem_toFinset, h.vertices]
  rw [nodeCount, ← hset, List.toFinset_card_of_nodup h.nodup]

omit [DecidableEq V] in
theorem edgeCount_eq (h : Records calls g) :
    g.edgeCount = (calls.filterMap Call.edge?).length := by
  rw [edgeCount, ← h.edges, Array.length_toList]

theorem isNew_eq (h : Records calls g) (v : V) :
    g.isNew v = decide (v ∉ calls.filterMap Call.vertex?) := by
  simp only [isNew, h.vertices]

omit [DecidableEq V] in
theorem complexity_eq (h : Records calls g) :
    g.complexity = g.edgeCount - g.nodeCount + 2 * lastComponents calls := by
  rw [complexity, h.components]

theorem counts_of_perm (h : Records calls g) (h' : Records calls' g') (hperm : calls.Perm calls') :
    g.nodeCount = g'.nodeCount ∧ g.edgeCount = g'.edgeCount := by
  have hvertices := List.toFinset_eq_of_perm _ _ (hperm.filterMap Call.vertex?)
  refine ⟨?_, ?_⟩
  · rw [h.nodeCount_eq, h'.nodeCount_eq, hvertices]
  · rw [h.edgeCount_eq, h'.edgeCount_eq, (hperm.filterMap Call.edge?).length_eq]

end Records

/-- The graph that some calls make of a new one. -/
def madeBy (calls : List (Call V)) : Graph V := (Session.new.run calls).graph

theorem records_madeBy (calls : List (Call V)) : Records calls (madeBy calls) :=
  records_new.run calls

theorem answers_vertex (before after : List (Call V)) (v : V) :
    (Session.new.answers (before ++ .change (.vertex v) :: after))[before.length]? =
      some (.isNew (decide (v ∉ before.filterMap Call.vertex?))) := by
  rw [Session.answers_append_cons, ← (records_madeBy before).isNew_eq v]
  rfl

/-- What is handed out is what was registered so far, and is left alone until it is emptied. -/
theorem exists_copy (before after : List (Call V)) :
    ∃ k set, (Session.new.answers (before ++ .vertices :: after))[before.length]? =
        some (.copy k) ∧
      (∀ v, v ∈ set ↔ v ∈ before.filterMap Call.vertex?) ∧
      (Session.new.run (before ++ .vertices :: after)).copies[k]? =
        if k ∈ after.filterMap Call.cleared? then some [] else some set := by
  refine ⟨(Session.new.run before).copies.length, (madeBy before).vertices, ?_,
    (records_madeBy before).vertices, ?_⟩
  · rw [Session.answers_append_cons]
    rfl
  · rw [Session.run_append, Session.run, Session.copies_run (by simp [Session.call])]
    simp [Session.call, madeBy]

/-- A graph is what the calls on it have made it. Its nodes are counted by the different vertices
that were registered or made the root, and registering one tells whether it was neither before;
edges are listed as they were added, the root is the last that was set, and McCabe's
number takes the last number of components. Sets that were handed out are copies. Nodes and
edges are as many after the same calls in another order, and McCabe's number is the same if
the last number of components is. -/
theorem calls_decide_graph (calls : List (Call V)) :
    (madeBy calls).nodeCount = (calls.filterMap Call.vertex?).toFinset.card ∧
    (∀ before v after, calls = before ++ .change (.vertex v) :: after →
      (Session.new.answers calls)[before.length]? =
        some (.isNew (decide (v ∉ before.filterMap Call.vertex?)))) ∧
    (madeBy calls).edges.toList = calls.filterMap Call.edge? ∧
    (madeBy calls).root = (calls.filterMap Call.root?).getLast? ∧
    (madeBy calls).complexity =
      (madeBy calls).edgeCount - (madeBy calls).nodeCount + 2 * lastComponents calls ∧
    (∀ before after, calls = before ++ .vertices :: after →
      ∃ k set, (Session.new.answers calls)[before.length]? = some (.copy k) ∧
        (∀ v, v ∈ set ↔ v ∈ before.filterMap Call.vertex?) ∧
        (Session.new.run calls).copies[k]? =
          if k ∈ after.filterMap Call.cleared? then some [] else some set) ∧
    ∀ calls', calls.Perm calls' → lastComponents calls = lastComponents calls' →
      (madeBy calls).nodeCount = (madeBy calls').nodeCount ∧
      (madeBy calls).edgeCount = (madeBy calls').edgeCount ∧
      (madeBy calls).complexity = (madeBy calls').complexity := by
  have h := records_madeBy calls
  refine ⟨h.nodeCount_eq, ?_, h.edges, h.root, h.complexity_eq, ?_, ?_⟩
  · rintro before v after rfl
    exact answers_vertex before after v
  · rintro before after rfl
    exact exists_copy before after
  · intro calls' hperm hlast
    have h' := records_madeBy calls'
    obtain ⟨hnodes, hedges⟩ := h.counts_of_perm h' hperm
    refine ⟨hnodes, hedges, ?_⟩
    rw [h.complexity_eq, h'.complexity_eq, hnodes, hedges, hlast]

/-- Vertices registered twice, an edge to none of them, two roots, and a copy that is emptied. -/
def sampleCalls : List (Call Int) :=
  [.change (.root 1), .change (.edge 1 2), .vertices, .change (.vertex 1), .clear 0,
    .change (.components 1), .change (.vertex 3), .change (.edge 1 2), .change (.root 3)]

/-- The same calls from the last to the first. -/
theorem calls_decide_graph_in_sampleCalls :
    sampleCalls.Perm sampleCalls.reverse ∧
    lastComponents sampleCalls = lastComponents sampleCalls.reverse ∧
    (madeBy sampleCalls).root = some 3 ∧ (madeBy sampleCalls.reverse).root = some 1 ∧
    (Session.new.answers sampleCalls)[3]? = some (.isNew false) ∧
    (Session.new.answers sampleCalls)[6]? = some (.isNew true) ∧
    (madeBy sampleCalls).nodeCount = 2 ∧ (madeBy sampleCalls.reverse).nodeCount = 2 ∧
    (madeBy sampleCalls).complexity = (madeBy sampleCalls.reverse).complexity := by
  obtain ⟨hnodes, hnew, _, hroot, _, _, hperm⟩ := calls_decide_graph sampleCalls
  have hreverse : sampleCalls.Perm sampleCalls.reverse := (List.reverse_perm _).symm
  obtain ⟨hsame, _, hcomplexity⟩ := hperm _ hreverse rfl
  exact ⟨hreverse, rfl, hroot, rfl, hnew (sampleCalls.take 3) 1 (sampleCalls.drop 4) rfl,
    hnew (sampleCalls.take 6) 3 (sampleCalls.drop 7) rfl, hnodes, hsame ▸ hnodes, hcomplexity⟩

end RustMetrics.Graph
