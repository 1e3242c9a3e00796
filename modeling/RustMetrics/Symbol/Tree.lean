import RustMetrics.Failure

/-! Symbols of a file: functions, and the methods of each `impl`. Functions and
methods carry a number of decision points; a file and an `impl` group them. -/

namespace RustMetrics

inductive SymbolKind where
  | file
  | impl
  | fn
  | method
  deriving DecidableEq, Repr

namespace SymbolKind

def name : SymbolKind → String
  | file => "File"
  | impl => "Impl"
  | fn => "Fn"
  | method => "Method"

def ofName : String → Except Failure SymbolKind
  | "File" => .ok file
  | "Impl" => .ok impl
  | "Fn" => .ok fn
  | "Method" => .ok method
  | word => .error (.unknownSymbolKind word)

end SymbolKind

inductive SymbolTree where
  | node (name : String) (kind : SymbolKind) (complexity : Int) (children : List SymbolTree)

namespace SymbolTree

def name : SymbolTree → String
  | node n _ _ _ => n

def kind : SymbolTree → SymbolKind
  | node _ k _ _ => k

def complexity : SymbolTree → Int
  | node _ _ c _ => c

def children : SymbolTree → List SymbolTree
  | node _ _ _ cs => cs

def label (t : SymbolTree) : String := t.kind.name ++ ": " ++ t.name

/-- Decision points and the one way in. -/
def mccabe (t : SymbolTree) : Int := t.complexity + 1

mutual

/-- The number of symbols in a tree. -/
def size : SymbolTree → Nat
  | node _ _ _ cs => sizes cs + 1

def sizes : List SymbolTree → Nat
  | [] => 0
  | t :: ts => size t + sizes ts

end

theorem size_pos (t : SymbolTree) : 0 < t.size := by
  obtain ⟨name, kind, complexity, cs⟩ := t
  rw [size]
  exact Nat.succ_pos _

theorem sizes_append (ts us : List SymbolTree) : sizes (ts ++ us) = sizes ts + sizes us := by
  induction ts with
  | nil => rw [List.nil_append, sizes, Nat.zero_add]
  | cons t ts ih => rw [List.cons_append, sizes, sizes, ih, Nat.add_assoc]

/-- Puts items on a stack, one after another. -/
def pushAll {α : Type} (items stack : List α) : List α := items.foldl (fun stack x => x :: stack) stack

/-- Items that are put on a stack in reverse come off it in order. -/
theorem pushAll_reverse {α : Type} (items stack : List α) :
    pushAll items.reverse stack = items ++ stack := by
  rw [pushAll, List.foldl_reverse, List.foldr_cons_eq_append, List.map_id']

/-- A stack gets smaller if its top gives way to the trees below it. -/
theorem sizes_pushAll_lt {α : Type} (tree : α → SymbolTree) (visit : SymbolTree → α)
    (h : ∀ t, tree (visit t) = t) (x : α) (rest : List α) :
    sizes ((pushAll ((tree x).children.map visit).reverse rest).map tree) <
      sizes ((x :: rest).map tree) := by
  rw [pushAll_reverse, List.map_append, List.map_map, sizes_append, List.map_cons, sizes,
    show tree ∘ visit = id from funext h, List.map_id]
  obtain ⟨name, kind, complexity, cs⟩ := tree x
  rw [size, children]
  omega

/-- The symbols without children that are met from a stack of trees, the next one on top. -/
def leavesFrom : List SymbolTree → List SymbolTree
  | [] => []
  | t :: rest =>
    let found := leavesFrom (pushAll t.children.reverse rest)
    if t.children.isEmpty then t :: found else found
termination_by stack => sizes stack
decreasing_by simpa using sizes_pushAll_lt id id (fun _ => rfl) t rest

/-- The symbols without children, from left to right. A tree without children is
its own leaf. -/
def leaves (t : SymbolTree) : List SymbolTree := leavesFrom [t]

theorem leavesFrom_cons (t : SymbolTree) (rest : List SymbolTree) :
    leavesFrom (t :: rest) =
      if t.children = [] then t :: leavesFrom rest else leavesFrom (t.children ++ rest) := by
  rw [leavesFrom, pushAll_reverse]
  by_cases h : t.children = []
  · simp [h]
  · simp [h]

theorem leavesFrom_append (stack rest : List SymbolTree) :
    leavesFrom (stack ++ rest) = leavesFrom stack ++ leavesFrom rest := by
  induction stack using leavesFrom.induct with
  | case1 => rw [List.nil_append, leavesFrom, List.nil_append]
  | case2 t stack h ih =>
    rw [List.isEmpty_iff] at h
    rw [pushAll_reverse, h, List.nil_append] at ih
    rw [List.cons_append, leavesFrom_cons, leavesFrom_cons, if_pos h, if_pos h, ih,
      List.cons_append]
  | case3 t stack h ih =>
    rw [List.isEmpty_iff] at h
    rw [pushAll_reverse] at ih
    rw [List.cons_append, leavesFrom_cons, leavesFrom_cons, if_neg h, if_neg h,
      ← List.append_assoc, ih]

theorem leavesFrom_eq_flatMap (stack : List SymbolTree) : leavesFrom stack = stack.flatMap leaves := by
  induction stack with
  | nil => rw [leavesFrom, List.flatMap_nil]
  | cons t stack ih =>
    rw [← List.singleton_append, leavesFrom_append, ih, List.singleton_append, List.flatMap_cons]
    rfl

/-- The loop finds what the plain recursion does. -/
theorem leaves_eq (t : SymbolTree) :
    t.leaves = if t.children = [] then [t] else t.children.flatMap leaves := by
  rw [leaves, leavesFrom_cons, leavesFrom, List.append_nil, leavesFrom_eq_flatMap]

def total (t : SymbolTree) : Int := (t.leaves.map complexity).foldr (· + ·) 0

end SymbolTree

end RustMetrics
