import RustMetrics.Node.Basic

/-! Flat listings of trees in pre-order, which is how a parser hands them over. The
nodes of a listing are numbered from the first to the last, so no number names
two nodes of the tree that is read from it. -/

namespace RustMetrics

/-- One line of a flat tree: a label, and how many of the following subtrees are
its children. -/
structure Listed where
  label : Label
  childCount : Nat

/-- The trees listed one after another. Read from the right, a line takes as many
finished trees as it has children and puts one tree in their place. -/
def Node.ofListing (lines : List Listed) : List Node :=
  lines.foldr (fun line done =>
    .node line.label (done.take line.childCount) :: done.drop line.childCount) []

/-- One node as the parser dumps it. `flags` has `n` for a named node, `x` for an
extra one, `e` for an error and `m` for a missing one; `start` and `stop` are
offsets into the file. -/
structure Dumped where
  kind : String
  flags : String
  field : String
  start : Nat
  stop : Nat
  childCount : Nat

def Dumped.has (d : Dumped) (flag : Char) : Bool := d.flags.toList.contains flag

/-- The line of a dumped node. `places` has the positions of all bytes. -/
def Dumped.listed (bytes : ByteArray) (places : Array Position) (d : Dumped) (index : Nat) :
    Listed where
  label :=
    { kind := d.kind
      named := d.has 'n'
      extra := d.has 'x'
      error := d.has 'e'
      missing := d.has 'm'
      field := d.field
      start := places.getD d.start (places.back?.getD ⟨0, 0⟩)
      text := bytes.extract d.start d.stop
      index := index }
  childCount := d.childCount

namespace Node

/-- The labels of all nodes, in pre-order. -/
def labels (n : Node) : List Label := n.preorder.map label

theorem labels_node (l : Label) (cs : List Node) : labels (node l cs) = l :: cs.flatMap labels := by
  rw [labels, preorder_node, List.map_cons, List.map_flatMap]
  rfl

/-- Reading a listing keeps every label, in order. -/
theorem flatMap_labels_ofListing (lines : List Listed) :
    (ofListing lines).flatMap labels = lines.map Listed.label := by
  induction lines with
  | nil => rfl
  | cons line lines ih =>
    have hsplit : (ofListing (line :: lines)).flatMap labels =
        line.label :: (((ofListing lines).take line.childCount ++
          (ofListing lines).drop line.childCount).flatMap labels) := by
      rw [List.flatMap_append]
      change labels (node _ _) ++ _ = _
      rw [labels_node]
      rfl
    rw [hsplit, List.take_append_drop, ih, List.map_cons]

end Node

/-- A tree of one file: the indices of its nodes are all different. -/
structure SyntaxTree where
  root : Node
  distinct : (root.labels.map Label.index).Nodup

namespace SyntaxTree

/-- The lines of a dump, numbered from zero. -/
def lines (bytes : ByteArray) (dump : List Dumped) : List Listed :=
  let places := Position.all bytes.toList
  dump.zipIdx.map fun d => d.1.listed bytes places d.2

theorem nodup_index_lines (bytes : ByteArray) (dump : List Dumped) :
    (((lines bytes dump).map Listed.label).map Label.index).Nodup := by
  have h : ((lines bytes dump).map Listed.label).map Label.index = dump.zipIdx.map Prod.snd := by
    simp only [lines, List.map_map]
    rfl
  rw [h, List.zipIdx_map_snd]
  exact List.nodup_range'

/-- The first tree of several is numbered apart if all of them are. -/
theorem nodup_index_head {root : Node} {rest : List Node} {ls : List Label}
    (h : (root :: rest).flatMap Node.labels = ls) (hn : (ls.map Label.index).Nodup) :
    (root.labels.map Label.index).Nodup := by
  rw [← h, List.flatMap_cons, List.map_append] at hn
  exact (List.nodup_append.mp hn).1

/-- The tree of a file that no parser has seen: one fault from end to end. -/
def unparsed (bytes : ByteArray) : SyntaxTree where
  root := .node ⟨"ERROR", true, false, true, false, "", ⟨0, 0⟩, bytes, 0⟩ []
  distinct := by
    rw [Node.labels_node]
    exact List.nodup_cons.mpr ⟨List.not_mem_nil, List.nodup_nil⟩

/-- The tree of a file with nothing in it. -/
def empty : SyntaxTree where
  root := .node ⟨"source_file", true, false, false, false, "", ⟨0, 0⟩, .empty, 0⟩ []
  distinct := by
    rw [Node.labels_node]
    exact List.nodup_cons.mpr ⟨List.not_mem_nil, List.nodup_nil⟩

/-- The tree of a dump. -/
def ofDump (bytes : ByteArray) (dump : List Dumped) : SyntaxTree :=
  match h : Node.ofListing (lines bytes dump) with
  | [] => unparsed bytes
  | root :: _ =>
    ⟨root, nodup_index_head (h ▸ Node.flatMap_labels_ofListing (lines bytes dump))
      (nodup_index_lines bytes dump)⟩

end SyntaxTree

end RustMetrics
