import RustMetrics.Proofs.Except
import RustMetrics.Proofs.Fingerprint.Cache
import RustMetrics.Proofs.Text.Utf8

/-! What holds of the trees that the parser makes, and not of all trees. Comments can stand
anywhere and belong to nothing, so no field holds one. Nodes start and end between characters,
so a part of a text is a text. Results that rest on one of these name it. -/

namespace RustMetrics

/-- Extra nodes are held by no field. That is how the parser makes trees: comments can stand
anywhere and belong to nothing. -/
def SyntaxTree.ExtrasLoose (tree : SyntaxTree) : Prop :=
  ∀ n ∈ tree.root.preorder, n.label.extra = true → n.label.field = ""

instance (tree : SyntaxTree) : Decidable tree.ExtrasLoose :=
  inferInstanceAs (Decidable (∀ n ∈ tree.root.preorder, _ → _))

/-- Looking a field up among the solid children alone gives the same child. -/
theorem SyntaxTree.ExtrasLoose.child?_eq {tree : SyntaxTree} {n : Node} {field : String}
    (hl : tree.ExtrasLoose) (hn : n ∈ tree.root.preorder) (hfield : field ≠ "") :
    n.child? field = Node.heldAs n.solidChildren field := by
  rw [Node.child?, Node.heldAs, Node.heldAs, Node.solidChildren, ← List.head?_filter,
    ← List.head?_filter, List.filter_filter]
  refine congrArg List.head? (List.filter_congr fun c hc => ?_)
  have hmem := Node.mem_preorder_of_mem_children hc _ hn
  cases hx : c.label.extra with
  | false => simp
  | true => simp [hl c hmem hx, Ne.symm hfield]

namespace Node

/-- The text of a node is UTF-8. -/
def Readable (n : Node) : Prop := ∃ text, n.text = Utf8.encode text

theorem readable_iff {n : Node} : n.Readable ↔ (Utf8.decode n.text).toOption.isSome = true := by
  constructor
  · rintro ⟨text, htext⟩
    rw [htext, Utf8.decode_encode]
    rfl
  · intro h
    obtain ⟨text, htext⟩ := Option.isSome_iff_exists.mp h
    exact ⟨text, Utf8.decode_eq_ok_iff.mp (eq_ok_of_toOption htext)⟩

instance (n : Node) : Decidable n.Readable := decidable_of_iff _ readable_iff.symm

/-- The children of a node that can be read can be read as well. That is how the parser makes
trees: it cuts a text between characters. -/
def ReadableBelow (root : Node) : Prop :=
  ∀ n ∈ root.preorder, n.Readable → ∀ c ∈ n.children, c.Readable

instance (root : Node) : Decidable root.ReadableBelow :=
  inferInstanceAs (Decidable (∀ n ∈ root.preorder, _ → ∀ c ∈ n.children, _))

end Node

end RustMetrics
