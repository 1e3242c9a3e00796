import RustMetrics.Fingerprint

/-! What has a fingerprint: the nodes of a tree, and import records. Both have a
kind, a text and parts, and a fingerprint is made from these in the same way. A
node is known by its index, which names it within its tree; an import record is
known by itself, so equal records are one subject. -/

namespace RustMetrics

inductive Subject where
  | node (n : Node)
  | record (t : ImportTree)

namespace Subject

inductive Key where
  | index (i : Nat)
  | record (t : ImportTree)
  deriving DecidableEq, Hashable

def key : Subject → Key
  | node n => .index n.label.index
  | record t => .record t

def kind : Subject → String
  | node n => n.kind
  | record t => t.kind.word

def text : Subject → ByteArray
  | node n => n.label.text
  | record t => t.name.toUTF8

/-- What is directly below and counts for the fingerprint. -/
def parts : Subject → List Subject
  | node n => n.solidChildren.map node
  | record t => t.children.map record

def fingerprint : Subject → Fingerprint
  | node n => n.fingerprint
  | record t => t.fingerprint

theorem fingerprint_eq (s : Subject) :
    s.fingerprint = .combine s.kind s.text (s.parts.map fingerprint) := by
  cases s with
  | node n =>
    rw [parts, List.map_map]
    exact n.fingerprint_eq
  | record t =>
    rw [parts, List.map_map]
    exact t.fingerprint_eq

theorem fingerprint_eq_digest (s : Subject) :
    s.fingerprint = .ofBytes (Blake2b.digest (Utf8.encode s.kind ++
      (if s.parts.isEmpty then 0 :: s.text.toList else []) ++
      s.parts.flatMap fun p => p.fingerprint.bytes)) := by
  rw [fingerprint_eq, Fingerprint.combine, Fingerprint.message, List.isEmpty_map,
    List.flatMap_map]

def size : Subject → Nat
  | node n => n.size
  | record t => t.size

theorem size_pos (s : Subject) : 0 < s.size := by
  cases s with
  | node n => exact n.size_pos
  | record t => exact t.size_pos

def sizes (subjects : List Subject) : Nat := (subjects.map size).foldr (· + ·) 0

@[simp] theorem sizes_nil : sizes [] = 0 := rfl

@[simp] theorem sizes_cons (s : Subject) (subjects : List Subject) :
    sizes (s :: subjects) = s.size + sizes subjects := rfl

theorem sizes_map_node (ns : List Node) : sizes (ns.map node) = Node.sizes ns := by
  induction ns with
  | nil => rfl
  | cons n ns ih => rw [List.map_cons, sizes_cons, ih, Node.sizes_cons, size]

theorem sizes_map_record (ts : List ImportTree) :
    sizes (ts.map record) = ImportTree.sizes ts := by
  induction ts with
  | nil => rfl
  | cons t ts ih => rw [List.map_cons, sizes_cons, ih, ImportTree.sizes, size]

/-- The parts of a subject are together smaller than it. -/
theorem sizes_parts_lt (s : Subject) : sizes s.parts < s.size := by
  cases s with
  | node n =>
    have hle : Node.sizes n.solidChildren ≤ Node.sizes n.children := Node.sizes_filter_le _ _
    rw [parts, sizes_map_node, size, Node.size_eq]
    omega
  | record t =>
    rw [parts, sizes_map_record, size, ImportTree.size_eq]
    omega

end Subject

end RustMetrics
