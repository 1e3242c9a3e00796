/-! Syntax trees of Rust files, as an outside parser hands them over. A node has a
kind, the name of the field under which its parent holds it, the bytes it
covers and where they start. Comments and the like are nodes too, marked as
extra. Trees can be thousands of levels deep, so every function here is linear
in the tree. -/

namespace RustMetrics

/-- A place in a file: lines before it, and bytes before it on its line. -/
structure Position where
  row : Nat
  column : Nat
  deriving DecidableEq, Repr

/-- Everything about a node but its children. `index` is its place in pre-order,
which names it within its tree; `field` is empty for a child without one. -/
structure Label where
  kind : String
  named : Bool
  extra : Bool
  error : Bool
  missing : Bool
  field : String
  start : Position
  text : ByteArray
  index : Nat

inductive Node where
  | node (label : Label) (children : List Node)

namespace Node

def label : Node → Label
  | node l _ => l

def children : Node → List Node
  | node _ cs => cs

def kind (n : Node) : String := n.label.kind

def text (n : Node) : List UInt8 := n.label.text.toList

/-- The children that are not extra: words, punctuation and phrases. -/
def solidChildren (n : Node) : List Node := n.children.filter fun c => !c.label.extra

/-- The children that stand for phrases of the language: named and not extra. -/
def phrases (n : Node) : List Node :=
  n.children.filter fun c => c.label.named && !c.label.extra

/-- The first of several children that is held under a field. -/
def heldAs (cs : List Node) (field : String) : Option Node :=
  cs.find? fun c => c.label.field == field

/-- The first child held under a field. It may be extra here; no field of a tree that the parser
made holds an extra node (`SyntaxTree.ExtrasLoose.child?_eq`). -/
def child? (n : Node) (field : String) : Option Node := heldAs n.children field

mutual

/-- The number of nodes of a tree. -/
def size : Node → Nat
  | node _ cs => sizes cs + 1

/-- The number of nodes of several trees. -/
def sizes : List Node → Nat
  | [] => 0
  | c :: cs => size c + sizes cs

end

mutual

def preorderOnto (rest : List Node) : Node → List Node
  | node l cs => node l cs :: preordersOnto rest cs

def preordersOnto (rest : List Node) : List Node → List Node
  | [] => rest
  | c :: cs => preorderOnto (preordersOnto rest cs) c

end

/-- All nodes of a tree, parents before children, left to right. -/
def preorder (n : Node) : List Node := preorderOnto [] n

mutual

theorem preorderOnto_eq (rest : List Node) :
    (n : Node) → preorderOnto rest n = preorderOnto [] n ++ rest
  | node l cs => by
    rw [preorderOnto, preordersOnto_eq rest cs, preorderOnto]
    rfl

theorem preordersOnto_eq (rest : List Node) :
    (cs : List Node) → preordersOnto rest cs = preordersOnto [] cs ++ rest
  | [] => rfl
  | c :: cs => by
    rw [preordersOnto, preorderOnto_eq, preordersOnto_eq rest cs, preordersOnto,
      preorderOnto_eq (preordersOnto [] cs), List.append_assoc]

end

theorem preordersOnto_nil_eq (cs : List Node) : preordersOnto [] cs = cs.flatMap preorder := by
  induction cs with
  | nil => rfl
  | cons c cs ih => rw [preordersOnto, preorderOnto_eq, ih, List.flatMap_cons, preorder]

theorem preorder_node (l : Label) (cs : List Node) :
    preorder (node l cs) = node l cs :: cs.flatMap preorder := by
  rw [preorder, preorderOnto, preordersOnto_nil_eq]

@[simp] theorem sizes_nil : sizes [] = 0 := rfl

@[simp] theorem sizes_cons (c : Node) (cs : List Node) : sizes (c :: cs) = size c + sizes cs := rfl

@[simp] theorem sizes_append (cs ds : List Node) : sizes (cs ++ ds) = sizes cs + sizes ds := by
  induction cs with
  | nil => simp
  | cons c cs ih => simp [ih, Nat.add_assoc]

theorem size_eq (n : Node) : n.size = sizes n.children + 1 := by
  cases n; rfl

theorem size_pos (n : Node) : 0 < n.size := by
  rw [size_eq]; omega

theorem sizes_filter_le (p : Node → Bool) (cs : List Node) : sizes (cs.filter p) ≤ sizes cs := by
  induction cs with
  | nil => simp
  | cons c cs ih =>
    by_cases h : p c = true
    · simp [h, ih]
    · simp only [h, List.filter_cons, sizes_cons]
      simp only [Bool.false_eq_true, if_false]
      omega

theorem size_le_sizes_of_mem {c : Node} {cs : List Node} (h : c ∈ cs) : c.size ≤ sizes cs := by
  induction cs with
  | nil => cases h
  | cons d cs ih =>
    rcases List.mem_cons.mp h with rfl | h
    · simp
    · simp only [sizes_cons]
      have := ih h
      omega

theorem sizes_phrases_lt (n : Node) : sizes n.phrases < n.size := by
  have := sizes_filter_le (fun c => c.label.named && !c.label.extra) n.children
  rw [size_eq]
  simp only [phrases]
  omega

theorem child?_mem {n c : Node} {field : String} (h : n.child? field = some c) :
    c ∈ n.children := List.mem_of_find?_eq_some h

theorem child?_field {n c : Node} {field : String} (h : n.child? field = some c) :
    c.label.field = field := by
  simpa using List.find?_some h

theorem size_child?_lt {n c : Node} {field : String} (h : n.child? field = some c) :
    c.size < n.size := by
  have := size_le_sizes_of_mem (child?_mem h)
  rw [size_eq n]
  omega

end Node

namespace Position

/-- The place after one more byte; a line feed ends the line. -/
def after (p : Position) (b : UInt8) : Position :=
  if b == 10 then ⟨p.row + 1, 0⟩ else ⟨p.row, p.column + 1⟩

/-- The place of the byte at `offset`. -/
def ofOffset (bytes : List UInt8) (offset : Nat) : Position :=
  (bytes.take offset).foldl after ⟨0, 0⟩

/-- The places of all bytes of a file and of its end. -/
def all (bytes : List UInt8) : Array Position :=
  (bytes.foldl (fun (ps, p) b => (ps.push (p.after b), p.after b))
    (#[⟨0, 0⟩], (⟨0, 0⟩ : Position))).1

end Position

end RustMetrics
