import Mathlib.Data.List.Flatten
import Mathlib.Data.List.Nodup
import Mathlib.Data.List.Perm.Subperm
import RustMetrics.Decision
import RustMetrics.Proofs.Fingerprint.Cache

/-! What a node leads to are subtrees strictly below it that do not overlap. This is said by
counting: all nodes of these subtrees together are found below the node, each as often as it
occurs there. In a tree whose nodes are numbered apart no node is then in two of them. -/

namespace RustMetrics

namespace Node

variable {α : Type} {cs ds es fs : List Node}

theorem length_preorder (n : Node) : n.preorder.length = n.size := by
  induction hn : n.size using Nat.strongRecOn generalizing n with
  | ind k ih =>
    obtain ⟨l, cs⟩ := n
    have below : ∀ ds : List Node, sizes ds < k → (ds.flatMap preorder).length = sizes ds := by
      intro ds hds
      induction ds with
      | nil => rfl
      | cons d ds ihs =>
        rw [sizes_cons] at hds
        rw [List.flatMap_cons, List.length_append, ih d.size (by omega) d rfl, ihs (by omega),
          sizes_cons]
    have hk : sizes cs + 1 = k := hn
    rw [preorder_node, List.length_cons, below cs (by omega), hk]

theorem preorder_sublist {n root : Node} (h : n ∈ root.preorder) :
    n.preorder.Sublist root.preorder := by
  induction hr : root.size using Nat.strongRecOn generalizing root with
  | ind k ih =>
    obtain ⟨l, cs⟩ := root
    rw [preorder_node] at h
    rcases List.mem_cons.mp h with rfl | h
    · exact List.Sublist.refl _
    · obtain ⟨c, hc, hn⟩ := List.mem_flatMap.mp h
      have hlt : c.size < k := by
        rw [← hr]
        exact Nat.lt_succ_of_le (size_le_sizes_of_mem hc)
      have hcs := (List.singleton_sublist.mpr hc).flatMap preorder
      rw [List.flatMap_singleton] at hcs
      rw [preorder_node]
      exact ((ih c.size hlt hn rfl).trans hcs).cons _

theorem flatMap_subperm {f g : Node → List Node} (h : ∀ c ∈ cs, (f c).Subperm (g c)) :
    (cs.flatMap f).Subperm (cs.flatMap g) := by
  induction cs with
  | nil => exact List.nil_subperm
  | cons c cs ih =>
    rw [List.flatMap_cons, List.flatMap_cons]
    exact (h c List.mem_cons_self).append (ih fun d hd => h d (List.mem_cons_of_mem _ hd))

/-- Subtrees that lie inside others without overlapping. -/
def Inside (cs ds : List Node) : Prop := (cs.flatMap preorder).Subperm (ds.flatMap preorder)

theorem inside_refl (cs : List Node) : Inside cs cs := List.Subperm.refl _

theorem Inside.trans (h : Inside cs ds) (h' : Inside ds es) : Inside cs es :=
  List.Subperm.trans h h'

theorem Inside.append (h : Inside cs ds) (h' : Inside es fs) : Inside (cs ++ es) (ds ++ fs) := by
  rw [Inside, List.flatMap_append, List.flatMap_append]
  exact List.Subperm.append h h'

theorem inside_of_sublist (h : cs.Sublist ds) : Inside cs ds := (h.flatMap preorder).subperm

theorem inside_of_subperm (h : cs.Subperm ds) : Inside cs ds := by
  obtain ⟨bs, hperm, hsub⟩ := h
  exact ((hperm.flatMap_right preorder).symm.subperm).trans (inside_of_sublist hsub)

theorem inside_filter (p : Node → Bool) (cs : List Node) : Inside (cs.filter p) cs :=
  inside_of_sublist List.filter_sublist

theorem inside_head? (cs : List Node) : Inside cs.head?.toList cs := by
  cases cs with
  | nil => exact inside_refl _
  | cons c cs => exact inside_of_sublist (List.singleton_sublist.mpr List.mem_cons_self)

theorem inside_children (n : Node) : Inside n.children [n] := by
  obtain ⟨l, cs⟩ := n
  rw [Inside, List.flatMap_singleton, preorder_node]
  exact List.Subperm.cons_self

theorem inside_phrases (n : Node) : Inside n.phrases n.children := inside_filter _ _

theorem inside_items (n : Node) : Inside n.items n.children :=
  (inside_filter _ _).trans n.inside_phrases

theorem filterMap_cons_toList (f : α → Option Node) (a : α) (as : List α) :
    (a :: as).filterMap f = (f a).toList ++ as.filterMap f := by
  cases hf : f a with
  | none => rw [List.filterMap_cons_none hf]; rfl
  | some d => rw [List.filterMap_cons_some hf]; rfl

/-- Each subtree may be replaced by at most one inside it. -/
theorem inside_filterMap {f : Node → Option Node} (h : ∀ c, Inside (f c).toList [c])
    (cs : List Node) : Inside (cs.filterMap f) cs := by
  induction cs with
  | nil => exact inside_refl _
  | cons c cs ih =>
    rw [filterMap_cons_toList]
    exact (h c).append ih

/-- Children held under different fields are different children. -/
theorem inside_filterMap_child? (n : Node) {fields : List String} (h : fields.Nodup) :
    Inside (fields.filterMap n.child?) n.children := by
  refine inside_of_subperm (List.Nodup.subperm (h.filterMap ?_) ?_)
  · intro f g c hf hg
    exact (child?_field hf).symm.trans (child?_field hg)
  · intro c hc
    obtain ⟨f, _, hf⟩ := List.mem_filterMap.mp hc
    exact child?_mem hf

theorem inside_child? (n : Node) (field : String) : Inside (n.child? field).toList n.children := by
  have h := n.inside_filterMap_child? (List.nodup_singleton field)
  rwa [filterMap_cons_toList, List.filterMap_nil, List.append_nil] at h

theorem inside_pair (n : Node) {f g : String} (h : f ≠ g) :
    Inside ((n.child? f).toList ++ (n.child? g).toList) n.children := by
  have hn := n.inside_filterMap_child? (List.nodup_cons.mpr ⟨by simpa using h, List.nodup_singleton g⟩)
  rwa [filterMap_cons_toList, filterMap_cons_toList, List.filterMap_nil, List.append_nil] at hn

theorem inside_bodyItems (n : Node) : Inside n.bodyItems n.children := by
  have hbody := n.inside_child? "body"
  unfold bodyItems
  split
  · exact List.nil_subperm
  · next body hb =>
    rw [hb] at hbody
    exact (body.inside_items.trans body.inside_children).trans hbody

theorem inside_methods (n : Node) : Inside n.methods n.children :=
  (inside_filter _ _).trans n.inside_bodyItems

theorem inside_statements (n : Node) : Inside n.statements n.children := by
  refine (inside_filterMap ?_ _).trans n.inside_phrases
  intro c
  split
  · exact List.nil_subperm
  · split
    · exact ((inside_head? _).trans c.inside_phrases).trans c.inside_children
    · exact inside_refl _

theorem inside_elseTarget? (n : Node) :
    Inside n.elseTarget?.toList (n.child? "alternative").toList := by
  unfold elseTarget?
  cases n.child? "alternative" with
  | none => exact List.nil_subperm
  | some a => exact ((inside_head? _).trans a.inside_phrases).trans a.inside_children

theorem inside_condition_branches (n : Node) :
    Inside ((n.child? "condition").toList ++ n.branches) n.children := by
  have hfields : Inside (["condition", "consequence", "alternative"].filterMap n.child?)
      n.children := n.inside_filterMap_child? (by decide)
  rw [filterMap_cons_toList, filterMap_cons_toList, filterMap_cons_toList, List.filterMap_nil,
    List.append_nil] at hfields
  refine Inside.trans ?_ hfields
  exact (inside_refl _).append ((inside_refl _).append n.inside_elseTarget?)

theorem inside_branches (n : Node) : Inside n.branches n.children :=
  (inside_of_sublist (List.sublist_append_right _ _)).trans n.inside_condition_branches

/-- The parts of an expression lie below it and apart from one another. -/
theorem inside_parts (n : Node) : Inside n.parts n.children := by
  unfold parts
  split
  · exact (inside_filter _ _).trans n.inside_phrases
  · exact n.inside_pair (by decide)
  · exact n.inside_pair (by decide)
  · exact n.inside_statements
  · exact (inside_filter _ _).trans n.inside_phrases
  · exact n.inside_condition_branches
  · exact List.nil_subperm

end Node

/-- Nodes that are found in a tree as often as they are listed have different indices. -/
theorem SyntaxTree.nodup_index (tree : SyntaxTree) {ns : List Node}
    (h : ns.Subperm tree.root.preorder) : (ns.map fun n => n.label.index).Nodup := by
  obtain ⟨ms, hperm, hsub⟩ := h
  have hd := tree.distinct
  rw [Node.labels, List.map_map] at hd
  exact (hperm.map _).nodup_iff.mp (hd.sublist (hsub.map _))

end RustMetrics
