import RustMetrics.Proofs.Graph.Site
import RustMetrics.Proofs.Report.Agreement
import RustMetrics.Survey

/-! When a report is above a limit. The number that a tree of symbols is compared by is the
largest of its leaves, and these are not only functions and methods: an `impl` without
methods is a leaf, and so is a file without symbols. They count zero, and a limit is not
negative, so only the functions and methods of the file decide. -/

namespace RustMetrics

/-- The functions that an item has: itself, or the methods of an `impl`. -/
def Node.ownFunctions (n : Node) : List Node :=
  match n.itemKind with
  | .fn => [n]
  | .impl => n.methods
  | _ => []

/-- The functions and methods of a file. -/
def Node.functions (root : Node) : List Node := root.items.flatMap ownFunctions

/-- The decision points in the body of a function. -/
def Node.decisionPoints (n : Node) : Nat := decisionsOf (n.child? "body")

namespace SymbolTree

def isCallable (t : SymbolTree) : Bool := t.kind == .fn || t.kind == .method

theorem leaves_node {name : String} {kind : SymbolKind} {c : Int} {ts : List SymbolTree}
    (h : ts ≠ []) : leaves (.node name kind c ts) = ts.flatMap leaves := by
  rw [leaves_eq]
  exact if_neg h

/-- Leaves that stand for functions: each of them has a leaf with its number, in order, and any
other leaf counts zero. -/
structure Counts (leaves : List SymbolTree) (functions : List Node) : Prop where
  callable : (leaves.filter isCallable).map complexity =
    functions.map fun f => (f.decisionPoints : Int)
  other : ∀ l ∈ leaves, l.isCallable = false → l.complexity = 0

namespace Counts

variable {ls ms : List SymbolTree} {fs gs : List Node} {l : SymbolTree} {f : Node}

theorem nil : Counts [] [] := ⟨rfl, fun _ h => absurd h List.not_mem_nil⟩

theorem append (h : Counts ls fs) (h' : Counts ms gs) : Counts (ls ++ ms) (fs ++ gs) := by
  refine ⟨?_, ?_⟩
  · rw [List.filter_append, List.map_append, List.map_append, h.callable, h'.callable]
  · intro l hl
    rcases List.mem_append.mp hl with hl | hl
    · exact h.other l hl
    · exact h'.other l hl

/-- A leaf that is no function or method and counts zero. -/
theorem of_other (hl : l.isCallable = false) (hc : l.complexity = 0) : Counts [l] [] := by
  refine ⟨by simp [hl], ?_⟩
  intro m hm _
  rw [List.mem_singleton.mp hm]
  exact hc

theorem exists_callable_lt_iff (h : Counts ls fs) (n : Int) :
    (∃ l ∈ ls, l.isCallable = true ∧ n < l.complexity) ↔ ∃ f ∈ fs, n < f.decisionPoints := by
  have hnumbers : (∃ c ∈ (ls.filter isCallable).map complexity, n < c) ↔
      ∃ c ∈ fs.map fun f => (f.decisionPoints : Int), n < c := by
    rw [h.callable]
  simpa [and_assoc] using hnumbers

theorem exists_lt_iff (h : Counts ls fs) {n : Int} (hn : 0 ≤ n) :
    (∃ l ∈ ls, n < l.complexity) ↔ ∃ f ∈ fs, n < f.decisionPoints := by
  rw [← h.exists_callable_lt_iff n]
  constructor
  · rintro ⟨l, hl, hlt⟩
    refine ⟨l, hl, ?_, hlt⟩
    by_contra hnot
    have hzero := h.other l hl (by simpa using hnot)
    omega
  · rintro ⟨l, hl, _, hlt⟩
    exact ⟨l, hl, hlt⟩

end Counts

theorem symbol_eq_ok {kind : SymbolKind} {f : Node} {t : SymbolTree}
    (h : f.symbol kind = .ok t) : ∃ name, t = .node name kind f.decisionPoints [] := by
  rw [Node.symbol] at h
  cases hname : Node.requiredText (f.child? "name") with
  | error e => rw [hname] at h; cases h
  | ok name =>
    rw [hname] at h
    cases h
    exact ⟨name, rfl⟩

theorem counts_symbol {kind : SymbolKind} {f : Node} {t : SymbolTree}
    (h : f.symbol kind = .ok t) (hkind : kind = .fn ∨ kind = .method) :
    Counts t.leaves [f] := by
  obtain ⟨name, rfl⟩ := symbol_eq_ok h
  rw [leaves_of_childless rfl]
  rcases hkind with rfl | rfl
  · exact ⟨rfl, fun l hl hnot => by rw [List.mem_singleton.mp hl] at hnot; cases hnot⟩
  · exact ⟨rfl, fun l hl hnot => by rw [List.mem_singleton.mp hl] at hnot; cases hnot⟩

theorem counts_methods {fs : List Node} {ts : List SymbolTree}
    (h : fs.mapM (Node.symbol .method) = .ok ts) : Counts (ts.flatMap leaves) fs := by
  replace h := mapM_eq_ok_iff.mp h
  induction h with
  | nil => exact .nil
  | cons hf _ ih => exact (counts_symbol hf (.inr rfl)).append ih

theorem counts_symbol? {path : String} {n : Node} {o : Option SymbolTree}
    (h : n.symbol? path = .ok o) : Counts (o.toList.flatMap leaves) n.ownFunctions := by
  rw [Node.symbol?] at h
  rw [Node.ownFunctions]
  cases hkind : n.itemKind with
  | fn =>
    simp only [hkind] at h ⊢
    cases hs : n.symbol .fn with
    | error e => rw [hs] at h; cases h
    | ok t =>
      rw [hs] at h
      cases h
      rw [Option.toList_some, List.flatMap_singleton]
      exact counts_symbol hs (.inl rfl)
  | impl =>
    simp only [hkind] at h ⊢
    cases hname : n.implName path with
    | error e => rw [hname] at h; cases h
    | ok name =>
      cases hmethods : n.methods.mapM (Node.symbol .method) with
      | error e => rw [hname, hmethods] at h; cases h
      | ok ts =>
        rw [hname, hmethods] at h
        cases h
        have hcounts := counts_methods hmethods
        rw [Option.toList_some, List.flatMap_singleton]
        by_cases hts : ts = []
        · subst hts
          have hnone : n.methods = [] := by simpa using hcounts.callable
          rw [hnone, leaves_of_childless rfl]
          exact .of_other rfl rfl
        · rw [leaves_node hts]
          exact hcounts
  | _ =>
    simp only [hkind] at h ⊢
    cases h
    exact .nil

theorem counts_symbols {path : String} {items : List Node} {symbols : List (Option SymbolTree)}
    (h : items.mapM (Node.symbol? path) = .ok symbols) :
    Counts ((symbols.filterMap id).flatMap leaves) (items.flatMap Node.ownFunctions) := by
  replace h := mapM_eq_ok_iff.mp h
  induction h with
  | nil => exact .nil
  | @cons n o _ _ hn _ ih =>
    have happend := (counts_symbol? hn).append ih
    cases o with
    | none => exact happend
    | some t => simpa using happend

/-- The leaves of an outline stand for the functions and methods of the file. -/
theorem counts_outline {path label : String} {root : Node} {t : SymbolTree}
    (h : root.outline path label = .ok t) : Counts t.leaves root.functions := by
  rw [Node.outline] at h
  cases hs : root.items.mapM (Node.symbol? path) with
  | error e => rw [hs] at h; cases h
  | ok symbols =>
    rw [hs] at h
    cases h
    have hcounts : Counts _ root.functions := counts_symbols hs
    by_cases hnil : symbols.filterMap id = []
    · rw [hnil] at hcounts ⊢
      have hnone : root.functions = [] := by simpa using hcounts.callable
      rw [hnone, leaves_of_childless rfl]
      exact .of_other rfl rfl
    · rw [leaves_node hnil]
      exact hcounts

end SymbolTree

namespace Report

variable {V : Type}

/-- A tree is above a limit if one of its leaves is. -/
theorem lt_worst_iff (path : String) {t : SymbolTree} {n : Int} (ht : t.complexity = 0)
    (hn : 0 ≤ n) :
    n < worst (⟨path, some t, none⟩ : Report V) ↔ ∃ l ∈ t.leaves, n < l.complexity := by
  by_cases hc : t.children = []
  · obtain ⟨name, kind, c, children⟩ := t
    cases hc
    cases ht
    rw [worst_of_no_entries path (SymbolTree.entries_of_childless rfl),
      SymbolTree.leaves_of_childless rfl]
    constructor
    · intro h
      omega
    · rintro ⟨l, hl, hlt⟩
      rw [List.mem_singleton.mp hl] at hlt
      exact hlt
  · have hexists : (∃ l ∈ t.leaves, n < l.complexity) ↔
        ∃ c ∈ t.leaves.map SymbolTree.complexity, n < c := by simp
    rw [hexists, worst_of_tree, SymbolTree.map_complexity_entries hc]
    cases t.leaves.map SymbolTree.complexity with
    | nil =>
      constructor
      · intro h
        exact absurd h (not_lt.mpr hn)
      · rintro ⟨c, hcmem, _⟩
        cases hcmem
    | cons first more =>
      obtain ⟨hmem, hupper⟩ := isGreatest_largest first more
      constructor
      · intro h
        exact ⟨_, hmem, h⟩
      · rintro ⟨c, hcmem, hlt⟩
        exact lt_of_lt_of_le hlt (hupper hcmem)

end Report

namespace Source

/-- A file is above a limit: in a survey of graphs its graph is, otherwise one of its functions
or methods. -/
def Exceeds (wantsGraph : Bool) (limit : Int) (s : Source) : Prop :=
  if wantsGraph then ∃ g, Graph.ofFile s.tree = .ok g ∧ limit < g.complexity
  else ∃ f ∈ s.root.functions, limit < f.decisionPoints

theorem report_eq_ok {wantsGraph : Bool} {s : Source} {r : Report Fingerprint}
    (h : s.report wantsGraph = .ok r) :
    if wantsGraph then ∃ g, Graph.ofFile s.tree = .ok g ∧ r = ⟨s.path, none, some g⟩
    else ∃ t, s.root.outline s.path s.path = .ok t ∧ r = ⟨s.path, some t, none⟩ := by
  obtain ⟨checked, hcheck, h⟩ := bind_eq_ok_iff.mp h
  have hs : s = checked := by
    rw [check] at hcheck
    split at hcheck
    · cases hcheck
    · exact Except.ok.inj hcheck
  subst hs
  cases wantsGraph with
  | true =>
    obtain ⟨g, hg, hr⟩ := bind_eq_ok_iff.mp h
    exact ⟨g, hg, (Except.ok.inj hr).symm⟩
  | false =>
    obtain ⟨t, ht, hr⟩ := bind_eq_ok_iff.mp h
    exact ⟨t, ht, (Except.ok.inj hr).symm⟩

theorem lt_worst_iff {wantsGraph : Bool} {s : Source} {r : Report Fingerprint} {limit : Int}
    (h : s.report wantsGraph = .ok r) (hlimit : 0 ≤ limit) :
    limit < r.worst ↔ s.Exceeds wantsGraph limit := by
  cases wantsGraph with
  | true =>
    obtain ⟨g, hg, rfl⟩ := report_eq_ok h
    show limit < g.complexity ↔ ∃ g, Graph.ofFile s.tree = .ok g ∧ limit < g.complexity
    simp [hg]
  | false =>
    obtain ⟨t, ht, rfl⟩ := report_eq_ok h
    rw [Report.lt_worst_iff s.path (Node.complexity_outline ht) hlimit]
    exact (SymbolTree.counts_outline ht).exists_lt_iff hlimit

theorem exists_lt_worst_iff {wantsGraph : Bool} {sources : List Source}
    {reports : List (Report Fingerprint)} {limit : Int}
    (h : sources.mapM (report wantsGraph) = .ok reports) (hlimit : 0 ≤ limit) :
    (∃ r ∈ reports, limit < r.worst) ↔ ∃ s ∈ sources, s.Exceeds wantsGraph limit := by
  replace h := mapM_eq_ok_iff.mp h
  induction h with
  | nil => simp
  | cons hs _ ih => simp only [List.mem_cons, exists_eq_or_imp, ih, lt_worst_iff hs hlimit]

/-- A file that is reported on as a tree is above a limit if one of its functions or methods
is, as a symbol. -/
theorem exists_outline_of_report {s : Source} {r : Report Fingerprint}
    (h : s.report false = .ok r) :
    ∃ t, s.root.outline s.path s.path = .ok t ∧ ∀ n, s.Exceeds false n ↔
      ∃ l ∈ t.leaves, l.isCallable = true ∧ n < l.complexity := by
  obtain ⟨t, ht, _⟩ := report_eq_ok h
  exact ⟨t, ht, fun n => ((SymbolTree.counts_outline ht).exists_callable_lt_iff n).symm⟩

end Source

end RustMetrics
