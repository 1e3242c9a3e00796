import RustMetrics.Proofs.Graph.Shapes
import RustMetrics.Proofs.Node.Parsed

/-! The shape of a file among the shapes below it. A walk goes from a node to children that are
not extra or that a field holds. Where no field holds an extra node, each step leads to a
smaller shape, so no node that is met has the shape of the file. Import records are not
nodes of the tree; they are told apart by what they hold, since all their parts are
records again, and no record leads on as an item does. -/

namespace RustMetrics

namespace Shape

def children : Shape → List Shape
  | node _ _ cs => cs

theorem sizeOf_lt_of_mem_children {x y : Shape} (h : y ∈ x.children) : sizeOf y < sizeOf x := by
  obtain ⟨k, t, cs⟩ := x
  have hlt := List.sizeOf_lt_of_mem h
  rw [children] at hlt
  rw [Shape.node.sizeOf_spec]
  omega

end Shape

namespace Node

theorem shape_mem_shapes {c : Node} {cs : List Node} (hc : c ∈ cs) (hx : c.label.extra = false) :
    c.shape ∈ shapes cs := by
  induction cs with
  | nil => cases hc
  | cons d cs ih =>
    rw [shapes]
    rcases List.mem_cons.mp hc with rfl | hc
    · rw [if_neg (by simp [hx])]
      exact List.mem_cons_self
    · split
      · exact ih hc
      · exact List.mem_cons_of_mem _ (ih hc)

theorem shape_mem_children {n c : Node} (hc : c ∈ n.children) (hx : c.label.extra = false) :
    c.shape ∈ n.shape.children := by
  obtain ⟨l, cs⟩ := n
  exact shape_mem_shapes hc hx

theorem shape_mem_of_mem_items {n c : Node} (hc : c ∈ n.items) : c.shape ∈ n.shape.children := by
  obtain ⟨hm, hp⟩ := List.mem_filter.mp (List.mem_of_mem_filter hc)
  rw [Bool.and_eq_true, Bool.not_eq_true'] at hp
  exact shape_mem_children hm hp.2

end Node

theorem Node.Above.sizeOf_shape_lt {tree : SyntaxTree} {n c : Node} (h : n.Above c)
    (hl : tree.ExtrasLoose) (hn : n ∈ tree.root.preorder) : sizeOf c.shape < sizeOf n.shape := by
  have step : ∀ {a b : Node}, a ∈ tree.root.preorder → a.Holds b →
      sizeOf b.shape < sizeOf a.shape := by
    intro a b ha hab
    have hb := Node.mem_preorder_of_mem_children hab.1 _ ha
    have hx : b.label.extra = false := by
      rcases hab.2 with hx | hfield
      · exact hx
      · by_contra hx
        exact hfield (hl b hb (by simpa using hx))
    exact Shape.sizeOf_lt_of_mem_children (Node.shape_mem_children hab.1 hx)
  induction h with
  | single hc => exact step hn hc
  | tail ha hc ih => exact Nat.lt_trans (step (Node.Above.mem_preorder ha hn) hc) ih

namespace ImportTree

/-- All records of an import are of the kinds that reading a declaration makes. -/
inductive Known : ImportTree → Prop
  | node {k s cs} : (∀ w, k ≠ .other w) → (∀ c ∈ cs, Known c) → Known (node k s cs)

theorem Known.children {t c : ImportTree} (h : t.Known) (hc : c ∈ t.children) : c.Known := by
  cases h with
  | node _ hcs => exact hcs c hc

theorem known_leaf {k : ImportKind} (s : String) (hk : ∀ w, k ≠ .other w) : (node k s []).Known :=
  .node hk fun _ hc => absurd hc List.not_mem_nil

theorem known_pair {k : ImportKind} {a b : ImportTree} (s : String) (hk : ∀ w, k ≠ .other w)
    (ha : a.Known) (hb : b.Known) : (node k s [a, b]).Known := by
  refine .node hk fun c hc => ?_
  rcases List.mem_pair.mp hc with rfl | rfl
  · exact ha
  · exact hb

theorem known_segment (s : String) : (segment s).Known := known_leaf s (by simp)

theorem Known.under {t : ImportTree} (h : t.Known) (ss : List String) : (under ss t).Known := by
  induction ss with
  | nil => exact h
  | cons s ss ih => exact known_pair s (by simp) (known_segment s) ih

theorem Known.withPath {path : Option Node} {rest t : ImportTree} (h : rest.Known)
    (ht : withPath path rest = .ok t) : t.Known := by
  obtain ⟨ss, _, rfl⟩ := map_eq_ok_iff.mp ht
  exact h.under ss

theorem known_renamed {ss : List String} {newName : String} {t : ImportTree}
    (ht : renamed ss newName = .ok t) : t.Known := by
  unfold renamed at ht
  split at ht
  · cases ht
  · next last _ =>
      cases ht
      have hlast : (node .rename last [segment last, segment newName]).Known :=
        known_pair last (by simp) (known_segment last) (known_segment newName)
      exact hlast.under ss.dropLast

theorem known_read {n : Node} {t : ImportTree} (h : read n = .ok t) : t.Known := by
  induction hn : n.size using Nat.strongRecOn generalizing n t with
  | ind k ih =>
    subst hn
    rw [read_eq] at h
    split at h
    · split at h
      · cases h
      · next argument ha => exact ih _ (Node.size_child?_lt ha) h rfl
    · obtain ⟨last, _, h⟩ := bind_eq_ok_iff.mp h
      have hlast : (node .name last []).Known := known_leaf last (by simp)
      exact hlast.withPath h
    · obtain ⟨ss, _, h⟩ := bind_eq_ok_iff.mp h
      obtain ⟨newName, _, h⟩ := bind_eq_ok_iff.mp h
      exact known_renamed h
    · have hglob : (node .glob "*" []).Known := known_leaf "*" (by simp)
      exact hglob.withPath h
    · split at h
      · cases h
      · next list hl =>
        obtain ⟨group, hg, h⟩ := bind_eq_ok_iff.mp h
        exact (ih _ (Node.size_child?_lt hl) hg rfl).withPath h
    · obtain ⟨ts, hts, rfl⟩ := map_eq_ok_iff.mp h
      refine .node (by simp) fun c hc => ?_
      obtain ⟨m, hm, hr⟩ := exists_of_mem_mapM hts hc
      have hlt : m.size < n.size :=
        Nat.lt_of_le_of_lt (Node.size_le_sizes_of_mem hm) (Node.sizes_phrases_lt n)
      exact ih _ hlt hr rfl
    · obtain ⟨s, _, h⟩ := bind_eq_ok_iff.mp h
      cases h
      exact known_leaf s (by simp)

theorem mem_children_of_mem_branches {t b : ImportTree} (h : b ∈ t.branches) : b ∈ t.children := by
  obtain ⟨k, s, cs⟩ := t
  cases k with
  | path => exact List.mem_of_mem_drop h
  | group => exact h
  | _ => cases h

theorem mem_shapes {x : Shape} {cs : List ImportTree} (h : x ∈ shapes cs) :
    ∃ c ∈ cs, c.shape = x := by
  induction cs with
  | nil => cases h
  | cons c cs ih =>
    rcases List.mem_cons.mp h with rfl | h
    · exact ⟨c, List.mem_cons_self, rfl⟩
    · obtain ⟨d, hd, hx⟩ := ih h
      exact ⟨d, List.mem_cons_of_mem _ hd, hx⟩

/-- A part of an import has the kind of a record, and no item of such a kind is entered. -/
theorem Known.itemKind_of_mem_children {t : ImportTree} {n : Node} (h : t.Known)
    (hn : n.shape ∈ t.shape.children) : n.itemKind = .other := by
  obtain ⟨c, hc, hshape⟩ : ∃ c ∈ t.children, c.shape = n.shape := by
    obtain ⟨k, s, cs⟩ := t
    exact mem_shapes hn
  have hkind : n.kind = c.kind.word := by
    rw [← Node.kind_shape, ← hshape]
    cases c
    rfl
  rw [Node.itemKind, hkind]
  cases h.children hc with
  | @node k _ _ hk _ =>
    cases k with
    | other w => exact absurd rfl (hk w)
    | _ => rfl

end ImportTree

namespace Site

theorem known_ofItem {n : Node} {t : ImportTree} (h : ofItem n = .ok (imports t)) : t.Known := by
  unfold ofItem at h
  split at h
  · obtain ⟨u, hu, he⟩ := map_eq_ok_iff.mp h
    cases he
    exact ImportTree.known_read hu
  · cases h

theorem known_of_expand {s : Site} {t : ImportTree} {below : List Site}
    (hs : ∀ u, s = imports u → u.Known) (he : s.expand = .ok below) (ht : imports t ∈ below) :
    t.Known := by
  have nested : ∀ {n : Node}, n.bodyItems.mapM ofItem = .ok below → t.Known := by
    intro n hn
    obtain ⟨c, _, ho⟩ := exists_of_mem_mapM hn ht
    exact known_ofItem ho
  have word : ∀ m : Option Node, imports t ≠ ofWord m := by
    intro m h
    cases m <;> cases h
  have mapped : ∀ {f : Node → Site} {ns : List Node}, (∀ n, f n ≠ imports t) →
      imports t ∉ ns.map f := by
    intro f ns hf hm
    obtain ⟨n, _, hn⟩ := List.mem_map.mp hm
    exact hf n hn
  cases s with
  | item n =>
    simp only [Site.expand] at he
    split at he
    · split at he
      · cases he; cases ht
      · cases he
        rcases List.mem_pair.mp ht with h | h
        · exact absurd h (word _)
        · cases h
    · cases he; exact absurd ht (mapped (by simp))
    · cases he; exact absurd ht (mapped (by simp))
    · cases he; exact absurd ht (mapped (by simp))
    · exact nested he
    · exact nested he
    · cases he; exact absurd ht (mapped (by simp))
    · cases he; cases ht
  | function n => cases he; exact absurd ht (mapped (by simp))
  | expression n => cases he; exact absurd ht (mapped (by simp))
  | word n => cases he; cases ht
  | absent => cases he; cases ht
  | imports u =>
    cases he
    obtain ⟨b, hb, hbt⟩ := List.mem_map.mp ht
    cases hbt
    exact (hs u rfl).children (ImportTree.mem_children_of_mem_branches hb)

/-- Imports that are met from an item are made of known records. -/
theorem Meets.known {n : Node} {a : Site} {t : ImportTree} (ha : ofItem n = .ok a)
    (h : a.Meets (imports t)) : t.Known := by
  have all : ∀ s, a.Meets s → ∀ u, s = imports u → u.Known := by
    intro s hs
    induction hs with
    | refl =>
      rintro u rfl
      exact known_ofItem ha
    | tail _ hstep ih =>
      obtain ⟨below, he, ht⟩ := hstep
      rintro u rfl
      exact known_of_expand ih he ht
  exact all _ h t rfl

/-- Nodes that are met from a place lie below its own node. -/
theorem Meets.above {a s : Site} {m : Node} (h : a.Meets s) (hm : s.node? = some m) :
    ∃ n, a.node? = some n ∧ (m = n ∨ n.Above m) := by
  induction h generalizing m with
  | refl => exact ⟨m, hm, .inl rfl⟩
  | tail _ hstep ih =>
    obtain ⟨below, he, ht⟩ := hstep
    obtain ⟨k, hk, hkm⟩ := above_of_expand he ht hm
    obtain ⟨n, hn, rfl | hnk⟩ := ih hk
    · exact ⟨_, hn, .inr hkm⟩
    · exact ⟨n, hn, .inr (.trans hnk hkm)⟩

theorem shape?_of_node? {s : Site} {m : Node} (h : s.node? = some m) : s.shape? = some m.shape := by
  cases s with
  | absent => cases h
  | imports t => cases h
  | _ => cases h; rfl

end Site

namespace SyntaxTree

variable {tree : SyntaxTree}

/-- No place of a file has the shape of a node that holds all items of the file, such as the
file itself. -/
theorem ExtrasLoose.shape?_ne (hl : tree.ExtrasLoose) {root : Node} {s : Site}
    (hroot : ∀ n ∈ tree.root.items, n.shape ∈ root.shape.children) (hs : tree.Meets s) :
    s.shape? ≠ some root.shape := by
  obtain ⟨sites, hsites, a, ha, hmeets⟩ := hs
  obtain ⟨n, hn, ho⟩ := exists_of_mem_mapM (Site.ofFile_eq_ok_iff.mp hsites) ha
  intro hshape
  cases hnode : s.node? with
  | some m =>
    -- nodes are smaller than the item that they are met from
    have hsize : sizeOf m.shape ≤ sizeOf n.shape := by
      obtain ⟨k, hk, hkm⟩ := hmeets.above hnode
      cases Site.node?_ofItem ho hk
      have hmem := Node.mem_preorder_of_mem_children (Node.holds_of_mem_items hn).1 _
        (Node.mem_preorder_self tree.root)
      rcases hkm with rfl | hkm
      · exact Nat.le_refl _
      · exact Nat.le_of_lt (hkm.sizeOf_shape_lt hl hmem)
    have hlt := Shape.sizeOf_lt_of_mem_children (hroot n hn)
    rw [Site.shape?_of_node? hnode, Option.some.injEq] at hshape
    rw [hshape] at hsize
    omega
  | none =>
    cases s with
    | imports t =>
      -- the item would be a part of the import, and such an item leads nowhere
      have hparts : n.shape ∈ t.shape.children := by
        have htr : t.shape = root.shape := Option.some.inj hshape
        rw [htr]
        exact hroot n hn
      have hkind := (hmeets.known ho).itemKind_of_mem_children hparts
      have hitem : a = .item n := by
        rw [Site.ofItem, if_neg (by simp [hkind])] at ho
        exact (Except.ok.inj ho).symm
      subst hitem
      have he : (Site.item n).expand = .ok [] := by
        simp only [Site.expand, hkind]
      rcases (Site.meets_iff he).mp hmeets with h | ⟨u, hu, _⟩
      · cases h
      · cases hu
    | absent => cases hshape
    | _ => cases hnode

end SyntaxTree

end RustMetrics
