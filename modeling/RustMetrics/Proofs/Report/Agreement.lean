import Mathlib.Algebra.Ring.Int.Defs
import Mathlib.Order.Bounds.Basic
import RustMetrics.Proofs.Except
import RustMetrics.Proofs.Fingerprint.Shape
import RustMetrics.Proofs.Text.Utf8
import RustMetrics.Report.Document
import RustMetrics.Report.Text
import RustMetrics.Symbol.Outline

/-! The lines of a report, its list of symbols and the number that a limit is compared
with come from three loops over the tree of symbols, each with a stack of its own: one
carries joined paths and can fail at a number, one carries lists of labels and passes over
the root, and one carries nothing. The loops go in step, so they meet the same leaves in
the same order, which is that of the plain recursion over the tree. -/

namespace RustMetrics

theorem Text.isWritable_iff {n : Int} :
    isWritable n = true ↔ (Nat.toDigits 10 n.natAbs).length ≤ maxDigits := by
  rw [isWritable, decide_eq_true_iff, Nat.pow_eq, Nat.length_toDigits_le_iff (by decide) (by decide)]

namespace SymbolTree

/-! ### Entries -/

/-- What an entry says of a leaf, with the labels that lead to it. -/
def entry (above : List String) (t : SymbolTree) : Entry :=
  ⟨above ++ [t.label], t.kind, t.name, t.complexity⟩

mutual

/-- The entries of the leaves of a tree, from left to right, given the labels above it. -/
def leafEntries (above : List String) : SymbolTree → List Entry
  | node n k c [] => [entry above (node n k c [])]
  | node n k c (t :: ts) => leafEntriesAll (above ++ [(node n k c (t :: ts)).label]) (t :: ts)

def leafEntriesAll (above : List String) : List SymbolTree → List Entry
  | [] => []
  | t :: ts => leafEntries above t ++ leafEntriesAll above ts

end

theorem leafEntriesAll_eq (above : List String) (ts : List SymbolTree) :
    leafEntriesAll above ts = ts.flatMap (leafEntries above) := by
  induction ts with
  | nil => rw [leafEntriesAll, List.flatMap_nil]
  | cons t ts ih => rw [leafEntriesAll, ih, List.flatMap_cons]

theorem leafEntries_of_childless {t : SymbolTree} (h : t.children = []) (above : List String) :
    t.leafEntries above = [t.entry above] := by
  obtain ⟨n, k, c, children⟩ := t
  cases h
  rw [leafEntries]

theorem leafEntries_of_children {t : SymbolTree} (h : t.children ≠ []) (above : List String) :
    t.leafEntries above = t.children.flatMap (leafEntries (above ++ [t.label])) := by
  obtain ⟨n, k, c, children⟩ := t
  cases children with
  | nil => exact absurd rfl h
  | cons t ts => rw [leafEntries, leafEntriesAll_eq, children]

namespace Visit

/-- The visits that follow a visit: its children, with one more label above them. -/
def next (v : Visit) : List Visit :=
  v.tree.children.map (⟨·, v.above ++ [v.tree.label], false⟩)

def entry (v : Visit) : Entry := v.tree.entry v.above

theorem isRoot_of_mem_next {v w : Visit} (h : w ∈ v.next) : w.isRoot = false := by
  obtain ⟨t, _, rfl⟩ := List.mem_map.mp h
  rfl

theorem next_of_childless {v : Visit} (h : v.tree.children = []) : v.next = [] := by
  rw [next, h, List.map_nil]

theorem map_tree_next (v : Visit) : v.next.map tree = v.tree.children := by
  rw [next, List.map_map]
  exact List.map_id _

end Visit

theorem entriesFrom_childless {v : Visit} (h : v.tree.children = []) (hroot : v.isRoot = false)
    (rest : List Visit) : entriesFrom (v :: rest) = v.entry :: entriesFrom rest := by
  rw [entriesFrom, pushAll_reverse]
  simp [h, hroot, Visit.entry, entry]

theorem entriesFrom_next {v : Visit} (h : v.tree.children ≠ [] ∨ v.isRoot = true)
    (rest : List Visit) : entriesFrom (v :: rest) = entriesFrom (v.next ++ rest) := by
  rw [entriesFrom, pushAll_reverse, if_neg]
  · rfl
  · simpa [or_iff_not_imp_left] using h

/-- What holds of the empty stack, and of a stack if it does once its top has given way to the
visits that follow, holds of all stacks of visits below the root. -/
@[elab_as_elim]
theorem Visit.stack_induction {motive : List Visit → Prop} (nil : motive [])
    (leaf : ∀ v rest, v.tree.children = [] → v.isRoot = false → motive rest → motive (v :: rest))
    (inner : ∀ v rest, v.tree.children ≠ [] → motive (v.next ++ rest) → motive (v :: rest))
    {stack : List Visit} (h : ∀ v ∈ stack, v.isRoot = false) : motive stack := by
  induction stack using entriesFrom.induct with
  | case1 => exact nil
  | case2 v rest here below hleaf ih =>
    obtain ⟨hleaf, hroot⟩ := Bool.and_eq_true_iff.mp hleaf
    rw [List.isEmpty_iff] at hleaf
    rw [pushAll_reverse, show below = [] from v.next_of_childless hleaf, List.nil_append] at ih
    exact leaf v rest hleaf (by simpa using hroot) (ih fun w hw => h w (.tail _ hw))
  | case3 v rest here below hinner ih =>
    have hroot := h v List.mem_cons_self
    rw [pushAll_reverse] at ih
    refine inner v rest (by simpa [hroot] using hinner) (ih ?_)
    intro w hw
    rcases List.mem_append.mp hw with hw | hw
    · exact v.isRoot_of_mem_next hw
    · exact h w (.tail _ hw)

/-- The loop finds what the plain recursion does. -/
theorem entriesFrom_eq {stack : List Visit} (h : ∀ v ∈ stack, v.isRoot = false) :
    entriesFrom stack = stack.flatMap fun v => v.tree.leafEntries v.above := by
  refine Visit.stack_induction ?nil ?leaf ?inner h
  case nil => rw [entriesFrom, List.flatMap_nil]
  case leaf =>
    intro v rest hleaf hroot ih
    rw [entriesFrom_childless hleaf hroot, ih, List.flatMap_cons, leafEntries_of_childless hleaf]
    rfl
  case inner =>
    intro v rest hinner ih
    rw [entriesFrom_next (.inl hinner), ih, List.flatMap_append, List.flatMap_cons,
      leafEntries_of_children hinner, Visit.next, List.flatMap_map]

/-- The entries of a tree are those of its children, each with the label of the root above it. -/
theorem entries_eq (t : SymbolTree) : t.entries = t.children.flatMap (leafEntries [t.label]) := by
  rw [entries, entriesFrom_next (.inr rfl), List.append_nil,
    entriesFrom_eq fun _ => Visit.isRoot_of_mem_next, Visit.next, List.flatMap_map]
  rfl

/-! ### Lines -/

/-- The line of an entry: its labels, joined, and its number. -/
def Entry.line (e : Entry) : String :=
  "[" ++ " > ".intercalate e.path ++ "] Complexity => " ++ toString e.complexity

/-- The line of an entry, if its number can be written out. -/
def Entry.line? (e : Entry) : Except Failure String :=
  (Report.written e.complexity).map fun number =>
    "[" ++ " > ".intercalate e.path ++ "] Complexity => " ++ number

theorem pathWith_of_ne_empty {above : String} (h : above ≠ "") (label : String) :
    pathWith above label = above ++ " > " ++ label := by
  have hempty : above.isEmpty = false := by simpa using h
  rw [pathWith, hempty]
  rfl

/-- A label is added to the joined text as it is to the list of labels. -/
theorem pathWith_intercalate {above : List String} (h : " > ".intercalate above ≠ "")
    (label : String) :
    pathWith (" > ".intercalate above) label = " > ".intercalate (above ++ [label]) := by
  have hne : above ≠ [] := by
    rintro rfl
    exact h String.intercalate_nil
  rw [pathWith_of_ne_empty h, String.intercalate_append_of_ne_nil hne (List.cons_ne_nil _ _),
    String.intercalate_singleton]

theorem intercalate_concat_ne_empty {above : List String} (h : " > ".intercalate above ≠ "")
    (label : String) : " > ".intercalate (above ++ [label]) ≠ "" := by
  rw [← pathWith_intercalate h, pathWith_of_ne_empty h]
  simp

theorem label_ne_empty (t : SymbolTree) : t.label ≠ "" := by
  simp [label]

namespace Visit

/-- A visit with its labels joined, as it waits for a line. -/
def joined (v : Visit) : SymbolTree × String := (v.tree, " > ".intercalate v.above)

/-- Something is above a visit. -/
def Deep (v : Visit) : Prop := " > ".intercalate v.above ≠ ""

theorem deep_of_mem_next {v w : Visit} (hv : v.Deep) (h : w ∈ v.next) : w.Deep := by
  obtain ⟨t, _, rfl⟩ := List.mem_map.mp h
  exact intercalate_concat_ne_empty hv v.tree.label

theorem map_joined_next {v : Visit} (hv : v.Deep) :
    v.next.map joined =
      v.tree.children.map (·, pathWith (" > ".intercalate v.above) v.tree.label) := by
  rw [next, List.map_map, pathWith_intercalate hv]
  rfl

end Visit

/-- Lines and entries are made in step, the path once as a text and once as a list. -/
theorem linesFrom_map_joined {stack : List Visit} (h : ∀ v ∈ stack, v.isRoot = false)
    (hdeep : ∀ v ∈ stack, v.Deep) :
    linesFrom (stack.map Visit.joined) = (entriesFrom stack).mapM Entry.line? := by
  revert hdeep
  refine Visit.stack_induction ?nil ?leaf ?inner h
  case nil =>
    intro _
    rw [entriesFrom, List.map_nil, linesFrom]
    rfl
  case leaf =>
    intro v rest hleaf hroot ih hdeep
    have hv := hdeep v List.mem_cons_self
    rw [entriesFrom_childless hleaf hroot, List.mapM_cons, ← ih fun w hw => hdeep w (.tail _ hw),
      List.map_cons, Visit.joined, linesFrom, if_pos (List.isEmpty_iff.mpr hleaf),
      pathWith_intercalate hv]
    rw [Entry.line?, show v.entry.complexity = v.tree.complexity from rfl]
    cases Report.written v.tree.complexity <;> rfl
  case inner =>
    intro v rest hinner ih hdeep
    have hv := hdeep v List.mem_cons_self
    rw [entriesFrom_next (.inl hinner), ← ih ?_, List.map_cons, Visit.joined, linesFrom,
      if_neg (by simpa using hinner), pushAll_reverse, List.map_append, v.map_joined_next hv]
    intro w hw
    rcases List.mem_append.mp hw with hw | hw
    · exact v.deep_of_mem_next hv hw
    · exact hdeep w (.tail _ hw)

/-- All numbers of the entries are short enough to be written out. -/
def Short (t : SymbolTree) : Prop :=
  ∀ e ∈ t.entries, (Nat.toDigits 10 e.complexity.natAbs).length ≤ 4300

theorem all_isWritable_iff {t : SymbolTree} :
    (t.entries.all fun e => Text.isWritable e.complexity) = true ↔ t.Short := by
  simp only [List.all_eq_true, Text.isWritable_iff]
  rfl

theorem Entry.line?_eq (e : Entry) :
    e.line? = if Text.isWritable e.complexity then .ok e.line else .error .tooManyDigits := by
  rw [line?, Report.written]
  cases Text.isWritable e.complexity <;> rfl

theorem linesFrom_child (t c : SymbolTree) :
    linesFrom [(c, t.label)] = (c.leafEntries [t.label]).mapM Entry.line? := by
  have hdeep : (⟨c, [t.label], false⟩ : Visit).Deep := by
    rw [Visit.Deep, String.intercalate_singleton]
    exact t.label_ne_empty
  have hlines : linesFrom ([(⟨c, [t.label], false⟩ : Visit)].map Visit.joined) = _ :=
    linesFrom_map_joined (by simp) (by simpa)
  rwa [entriesFrom_eq (by simp), List.flatMap_singleton, List.map_singleton, Visit.joined,
    String.intercalate_singleton] at hlines

/-- The lines of a tree are its heading and the lines of its entries. -/
theorem textLines_eq (t : SymbolTree) :
    t.textLines = (t.entries.mapM Entry.line?).map (t.label :: ·) := by
  rw [textLines, entries_eq, mapM_flatMap]
  simp only [linesFrom_child]
  cases t.children.mapM fun c => (c.leafEntries [t.label]).mapM Entry.line? <;> rfl

theorem render_eq (t : SymbolTree) :
    t.render = if t.entries.all fun e => Text.isWritable e.complexity then
      .ok ("\n".intercalate (t.label :: t.entries.map Entry.line) ++ "\n\n")
    else .error .tooManyDigits := by
  rw [render, textLines_eq, show Entry.line? = _ from funext Entry.line?_eq, mapM_ite]
  split <;> rfl

theorem render_of_short {t : SymbolTree} (h : t.Short) :
    t.render = .ok ("\n".intercalate (t.label :: t.entries.map Entry.line) ++ "\n\n") := by
  rw [render_eq, if_pos (all_isWritable_iff.mpr h)]

theorem render_of_not_short {t : SymbolTree} (h : ¬ t.Short) :
    t.render = .error .tooManyDigits := by
  rw [render_eq, if_neg (all_isWritable_iff.not.mpr h)]

/-! ### Leaves -/

/-- The leaf that an entry stands for. -/
def Entry.leaf (e : Entry) : SymbolTree := node e.name e.kind e.complexity []

theorem Visit.leaf_entry {v : Visit} (h : v.tree.children = []) : v.entry.leaf = v.tree := by
  obtain ⟨⟨n, k, c, cs⟩, above, isRoot⟩ := v
  cases h
  rfl

/-- Entries and leaves are found in step; a leaf carries no path. -/
theorem map_leaf_entriesFrom {stack : List Visit} (h : ∀ v ∈ stack, v.isRoot = false) :
    (entriesFrom stack).map Entry.leaf = leavesFrom (stack.map Visit.tree) := by
  refine Visit.stack_induction ?nil ?leaf ?inner h
  case nil => rw [entriesFrom, List.map_nil, List.map_nil, leavesFrom]
  case leaf =>
    intro v rest hleaf hroot ih
    rw [entriesFrom_childless hleaf hroot, List.map_cons, List.map_cons, leavesFrom_cons,
      if_pos hleaf, ih, v.leaf_entry hleaf]
  case inner =>
    intro v rest hinner ih
    rw [entriesFrom_next (.inl hinner), ih, List.map_cons, leavesFrom_cons, if_neg hinner,
      List.map_append, v.map_tree_next]

theorem map_leaf_entries {t : SymbolTree} (h : t.children ≠ []) :
    t.entries.map Entry.leaf = t.leaves := by
  rw [entries, entriesFrom_next (.inr rfl), List.append_nil,
    map_leaf_entriesFrom fun _ => Visit.isRoot_of_mem_next, Visit.map_tree_next, leaves,
    leavesFrom_cons, if_neg h, List.append_nil]

theorem map_complexity_entries {t : SymbolTree} (h : t.children ≠ []) :
    t.entries.map Entry.complexity = t.leaves.map complexity := by
  rw [← map_leaf_entries h, List.map_map]
  rfl

theorem entries_of_childless {t : SymbolTree} (h : t.children = []) : t.entries = [] := by
  rw [entries_eq, h, List.flatMap_nil]

theorem leaves_of_childless {t : SymbolTree} (h : t.children = []) : t.leaves = [t] := by
  rw [leaves_eq, if_pos h]

theorem total_eq_sum {t : SymbolTree} (h : t.complexity = 0) :
    t.total = (t.entries.map Entry.complexity).sum := by
  by_cases hc : t.children = []
  · rw [total, leaves_of_childless hc, entries_of_childless hc, List.map_singleton, h]
    rfl
  · rw [total, map_complexity_entries hc]
    rfl

end SymbolTree

namespace Report

variable {V : Type}

theorem isGreatest_largest (first : Int) (more : List Int) :
    IsGreatest {c | c ∈ first :: more} (largest first more) :=
  List.max?_eq_some_iff.mp List.max?_cons'

/-- Without a graph, the numbers of the entries decide. -/
theorem worst_of_tree (path : String) (t : SymbolTree) :
    worst (⟨path, some t, none⟩ : Report V) =
      match t.entries.map SymbolTree.Entry.complexity with
      | [] => 0
      | first :: more => largest first more := by
  rw [worst]
  dsimp only
  by_cases h : t.children = []
  · rw [SymbolTree.entries_of_childless h, h]
    rfl
  · rw [SymbolTree.map_complexity_entries h]
    exact if_neg (by simpa using h)

theorem worst_of_no_entries (path : String) {t : SymbolTree} (h : t.entries = []) :
    worst (⟨path, some t, none⟩ : Report V) = 0 := by
  rw [worst_of_tree, h]
  rfl

theorem isGreatest_worst (path : String) {t : SymbolTree} (h : t.entries ≠ []) :
    IsGreatest {c | ∃ e ∈ t.entries, e.complexity = c}
      (worst (⟨path, some t, none⟩ : Report V)) := by
  obtain ⟨e, es, hes⟩ := List.exists_cons_of_ne_nil h
  have hset : {c | ∃ d ∈ t.entries, d.complexity = c} =
      {c | c ∈ e.complexity :: es.map SymbolTree.Entry.complexity} := by
    ext c
    rw [hes, ← List.map_cons]
    exact List.mem_map.symm
  rw [hset, worst_of_tree, hes]
  exact isGreatest_largest _ _

/-- One report is printed as it is rendered. -/
theorem printedText_singleton (r : Report V) : printedText [r] = r.render := by
  rw [printedText, List.mapM_cons]
  cases r.render with
  | error e => rfl
  | ok text => exact congrArg Except.ok (by simp)

theorem printedText_of_tree (path : String) (t : SymbolTree) :
    printedText [(⟨path, some t, none⟩ : Report V)] = t.render := by
  rw [printedText_singleton]
  show (t.render >>= fun text => .ok (text ++ "")) = t.render
  cases t.render with
  | error e => rfl
  | ok text => exact congrArg Except.ok String.append_empty

theorem printedText_of_graph (path : String) (g : Graph V) :
    printedText [⟨path, none, some g⟩] = g.render path := by
  rw [printedText_singleton, render]
  generalize hg : g.render path = text
  simp only [Option.elim_none, Option.elim_some, hg]
  cases text with
  | error e => rfl
  | ok text => exact congrArg Except.ok String.empty_append

end Report

theorem Node.complexity_outline {path label : String} {root : Node} {t : SymbolTree}
    (h : Node.outline path label root = .ok t) : t.complexity = 0 := by
  rw [Node.outline] at h
  cases hs : root.items.mapM (Node.symbol? path) with
  | error e => rw [hs] at h; cases h
  | ok symbols =>
    rw [hs] at h
    cases h
    rfl

namespace SymbolTree

/-- A line says what a symbol of a document says. -/
def Tells (line : String) (symbol : Json) : Prop :=
  ∃ path n, symbol.field? "path" = some (.str path) ∧ symbol.field? "complexity" = some (.int n) ∧
    line = "[" ++ path ++ "] Complexity => " ++ toString n

theorem Entry.tells (e : Entry) : Tells e.line e.document := ⟨_, _, rfl, rfl, rfl⟩

/-- The text of a tree, its list of symbols and its numbers agree. -/
structure FormsAgree (V : Type) (t : SymbolTree) : Prop where
  entries : t.entries = t.children.flatMap (leafEntries [t.label])
  lines : t.Short →
    t.render = .ok ("\n".intercalate (t.label :: t.entries.map Entry.line) ++ "\n\n")
  refused : ¬ t.Short → t.render = .error .tooManyDigits
  printed : ∀ path, Report.printedText [(⟨path, some t, none⟩ : Report V)] = t.render
  symbols : ∀ path, ∃ symbols,
    (Report.document (⟨path, some t, none⟩ : Report V)).field? "symbols" = some (.arr symbols) ∧
      List.Forall₂ Tells (t.entries.map Entry.line) symbols
  leaves : t.children ≠ [] → t.entries.map Entry.leaf = t.leaves
  worst : ∀ path, let worst := Report.worst (⟨path, some t, none⟩ : Report V)
    (t.entries = [] → worst = 0) ∧
      (t.entries ≠ [] → IsGreatest {c | ∃ e ∈ t.entries, e.complexity = c} worst)
  total : ∀ path label root, Node.outline path label root = .ok t →
    t.total = (t.entries.map Entry.complexity).sum

/-- The text of a tree is its heading and one line for each entry, in order, unless a number is
too long to be written; the entries are the leaves below the root. The limit is compared with
the largest number of an entry, and the total of an outline is the sum of these numbers. -/
theorem report_forms_agree (V : Type) (t : SymbolTree) : t.FormsAgree V where
  entries := t.entries_eq
  lines := render_of_short
  refused := render_of_not_short
  printed := fun path => Report.printedText_of_tree path t
  symbols := by
    intro path
    refine ⟨t.entries.map Entry.document, rfl, ?_⟩
    rw [List.forall₂_map_left_iff, List.forall₂_map_right_iff, List.forall₂_same]
    exact fun e _ => e.tells
  leaves := map_leaf_entries
  worst := fun path => ⟨Report.worst_of_no_entries path, Report.isGreatest_worst path⟩
  total := fun _ _ _ h => total_eq_sum (Node.complexity_outline h)

/-- `fn f() { if x {} }`. -/
def branchingFn : Node :=
  .phrase 1 "function_item" "" "fn f() \x7b if x \x7b\x7d \x7d"
    [.token 2 "fn", .phrase 3 "identifier" "name" "f" [],
      .phrase 4 "parameters" "parameters" "()" [.token 5 "(", .token 6 ")"],
      .phrase 7 "block" "body" "\x7b if x \x7b\x7d \x7d"
        [.token 8 "\x7b",
          .phrase 9 "if_expression" "" "if x \x7b\x7d"
            [.token 10 "if", .phrase 11 "identifier" "condition" "x" [],
              .phrase 12 "block" "consequence" "\x7b\x7d" [.token 13 "\x7b", .token 14 "\x7d"]],
          .token 15 "\x7d"]]

/-- `fn m() {}`. -/
def straightFn : Node :=
  .phrase 21 "function_item" "" "fn m() \x7b\x7d"
    [.token 22 "fn", .phrase 23 "identifier" "name" "m" [],
      .phrase 24 "parameters" "parameters" "()" [.token 25 "(", .token 26 ")"],
      .phrase 27 "block" "body" "\x7b\x7d" [.token 28 "\x7b", .token 29 "\x7d"]]

/-- `impl T { fn m() {} }`. -/
def implOfT : Node :=
  .phrase 16 "impl_item" "" "impl T \x7b fn m() \x7b\x7d \x7d"
    [.token 17 "impl", .phrase 18 "type_identifier" "type" "T" [],
      .phrase 19 "declaration_list" "body" "\x7b fn m() \x7b\x7d \x7d"
        [.token 20 "\x7b", straightFn, .token 30 "\x7d"]]

/-- `impl U {}`. -/
def implOfU : Node :=
  .phrase 31 "impl_item" "" "impl U \x7b\x7d"
    [.token 32 "impl", .phrase 33 "type_identifier" "type" "U" [],
      .phrase 34 "declaration_list" "body" "\x7b\x7d" [.token 35 "\x7b", .token 36 "\x7d"]]

/-- A function, an `impl` with a method and one without. -/
def threeItems : Node := .phrase 0 "source_file" "" "" [branchingFn, implOfT, implOfU]

def threeItemsOutline : SymbolTree :=
  .node "a.rs" .file 0
    [.node "f" .fn 1 [], .node "T" .impl 0 [.node "m" .method 0 []], .node "U" .impl 0 []]

theorem decisions_straight (i j k : Nat) (field : String) :
    (Node.phrase i "block" field "\x7b\x7d" [.token j "\x7b", .token k "\x7d"]).decisions = 0 := by
  rw [Node.decisions_eq]
  rfl

theorem symbol_branchingFn : branchingFn.symbol .fn = .ok (.node "f" .fn 1 []) := by
  have hname : Node.requiredText (branchingFn.child? "name") = .ok "f" := decoded_encode "f"
  have hbody : decisionsOf (branchingFn.child? "body") = 1 := by
    show Node.decisions _ = 1
    rw [Node.decisions_eq]
    show Node.decisions _ + 0 + 0 = 1
    rw [Node.decisions_eq]
    show Node.decisions _ + 0 + 1 + 0 + 0 = 1
    rw [decisions_straight]
  rw [Node.symbol, hname, hbody]
  rfl

theorem symbol_straightFn : straightFn.symbol .method = .ok (.node "m" .method 0 []) := by
  have hname : Node.requiredText (straightFn.child? "name") = .ok "m" := decoded_encode "m"
  have hbody : decisionsOf (straightFn.child? "body") = 0 := decisions_straight 27 28 29 "body"
  rw [Node.symbol, hname, hbody]
  rfl

theorem leadingName_typeIdentifier (i : Nat) (s : String) :
    (Node.phrase i "type_identifier" "type" s []).leadingName = .ok (some s) := by
  rw [Node.leadingName]
  show (decoded (Utf8.encode s)).map some = _
  rw [decoded_encode]
  rfl

theorem symbol?_branchingFn :
    branchingFn.symbol? "a.rs" = .ok (some (.node "f" .fn 1 [])) := by
  rw [Node.symbol?]
  show (branchingFn.symbol .fn >>= _) = _
  rw [symbol_branchingFn]
  rfl

theorem symbol?_implOfT :
    implOfT.symbol? "a.rs" = .ok (some (.node "T" .impl 0 [.node "m" .method 0 []])) := by
  have hname : implOfT.implName "a.rs" = .ok "T" := by
    rw [Node.implName]
    show (Node.leadingName _ >>= _) = _
    rw [leadingName_typeIdentifier]
    rfl
  rw [Node.symbol?]
  show (implOfT.implName "a.rs" >>= fun name =>
    [straightFn].mapM (Node.symbol .method) >>= _) = _
  rw [hname]
  show ([straightFn].mapM (Node.symbol .method) >>= _) = _
  rw [List.mapM_cons, symbol_straightFn]
  rfl

theorem symbol?_implOfU (path : String) :
    implOfU.symbol? path = .ok (some (.node "U" .impl 0 [])) := by
  rw [Node.symbol?]
  show ((Node.leadingName _ >>= _) >>= _) = _
  rw [leadingName_typeIdentifier]
  rfl

theorem outline_threeItems :
    Node.outline "a.rs" "a.rs" threeItems = .ok threeItemsOutline := by
  rw [Node.outline]
  show ([branchingFn, implOfT, implOfU].mapM (Node.symbol? "a.rs") >>= _) = _
  rw [List.mapM_cons, List.mapM_cons, List.mapM_cons, symbol?_branchingFn, symbol?_implOfT,
    symbol?_implOfU]
  rfl

/-- The text of a report on the three items. -/
def threeItemsText : String :=
  "File: a.rs\n[File: a.rs > Fn: f] Complexity => 1\n" ++
    "[File: a.rs > Impl: T > Method: m] Complexity => 0\n" ++
    "[File: a.rs > Impl: U] Complexity => 0\n\n"

/-- A function with a number of 4301 digits. -/
def overflowing : SymbolTree := .node "a.rs" .file 0 [.node "f" .fn (Nat.pow 10 Text.maxDigits) []]

/-- An `impl` without methods has a line and an entry of its own. A number that is too long leaves
no text at all. -/
theorem report_forms_agree_on_threeItems :
    Node.outline "a.rs" "a.rs" threeItems = .ok threeItemsOutline ∧
      Report.printedText [(⟨"a.rs", some threeItemsOutline, none⟩ : Report Fingerprint)] =
        .ok threeItemsText ∧
      threeItemsOutline.total = 1 ∧
      IsGreatest {c | ∃ e ∈ threeItemsOutline.entries, e.complexity = c}
        (Report.worst (⟨"a.rs", some threeItemsOutline, none⟩ : Report Fingerprint)) ∧
      Report.printedText [(⟨"a.rs", some overflowing, none⟩ : Report Fingerprint)] =
        .error .tooManyDigits := by
  have hagree := report_forms_agree Fingerprint threeItemsOutline
  have hlong := report_forms_agree Fingerprint overflowing
  have hentries : threeItemsOutline.entries =
      [⟨["File: a.rs", "Fn: f"], .fn, "f", 1⟩,
        ⟨["File: a.rs", "Impl: T", "Method: m"], .method, "m", 0⟩,
        ⟨["File: a.rs", "Impl: U"], .impl, "U", 0⟩] := hagree.entries
  have hshort : threeItemsOutline.Short := all_isWritable_iff.mp (by decide +kernel)
  have hover : ¬ overflowing.Short := all_isWritable_iff.not.mp (by decide +kernel)
  refine ⟨outline_threeItems, ?_, ?_, (hagree.worst "a.rs").2 ?_, ?_⟩
  · rw [hagree.printed, hagree.lines hshort, hentries]
    rfl
  · rw [hagree.total _ _ _ outline_threeItems, hentries]
    rfl
  · rw [hentries]
    exact List.cons_ne_nil _ _
  · rw [hlong.printed, hlong.refused hover]

end SymbolTree

end RustMetrics
