import Mathlib.Data.List.Forall2
import Mathlib.Logic.Relation
import RustMetrics.Graph.Walk
import RustMetrics.Proofs.Except
import RustMetrics.Proofs.Fingerprint.Cache

/-! The places of a walk stay inside the tree it started from, so a cache that is
right about the tree gives every place its plain fingerprint. -/

namespace RustMetrics

namespace Node

/-- A child that a walk can come to: one that is not extra, or that a field holds. -/
def Holds (n c : Node) : Prop := c ∈ n.children ∧ (c.label.extra = false ∨ c.label.field ≠ "")

/-- A node lies above those that a walk can come to from it. -/
def Above : Node → Node → Prop := Relation.TransGen Holds

variable {root n c : Node}

theorem Above.mem_preorder (h : n.Above c) (hn : n ∈ root.preorder) : c ∈ root.preorder := by
  induction h with
  | single hc => exact mem_preorder_of_mem_children hc.1 root hn
  | tail _ hc ih => exact mem_preorder_of_mem_children hc.1 root ih

theorem holds_of_mem_phrases (hc : c ∈ n.phrases) : n.Holds c := by
  obtain ⟨hm, hp⟩ := List.mem_filter.mp hc
  rw [Bool.and_eq_true, Bool.not_eq_true'] at hp
  exact ⟨hm, .inl hp.2⟩

theorem holds_of_mem_items (hc : c ∈ n.items) : n.Holds c :=
  holds_of_mem_phrases (List.mem_of_mem_filter hc)

theorem holds_of_child? {field : String} (hfield : field ≠ "") (hc : n.child? field = some c) :
    n.Holds c :=
  ⟨child?_mem hc, .inr (by rw [child?_field hc]; exact hfield)⟩

theorem above_of_child? {field : String} (hfield : field ≠ "")
    (hc : c ∈ (n.child? field).toList) : n.Above c :=
  .single (holds_of_child? hfield (Option.mem_toList.mp hc))

theorem above_of_mem_bodyItems (hc : c ∈ n.bodyItems) : n.Above c := by
  unfold bodyItems at hc
  split at hc
  · cases hc
  · next body hb =>
    exact .tail (.single (holds_of_child? (by decide) hb)) (holds_of_mem_items hc)

theorem above_of_mem_statements (hc : c ∈ n.statements) : n.Above c := by
  obtain ⟨d, hd, hc⟩ := List.mem_filterMap.mp hc
  have hd := holds_of_mem_phrases hd
  split at hc
  · cases hc
  · split at hc
    · exact .tail (.single hd) (holds_of_mem_phrases (List.mem_of_mem_head? hc))
    · exact Option.some.inj hc ▸ .single hd

theorem above_of_mem_branches (hc : c ∈ n.branches) : n.Above c := by
  rcases List.mem_append.mp hc with hc | hc
  · exact above_of_child? (by decide) hc
  · obtain ⟨a, ha, hc⟩ := Option.bind_eq_some_iff.mp (Option.mem_toList.mp hc)
    exact .tail (.single (holds_of_child? (by decide) ha))
      (holds_of_mem_phrases (List.mem_of_mem_head? hc))

theorem above_of_mem_sides (hc : c ∈ n.sides) : n.Above c := by
  rcases List.mem_append.mp hc with hc | hc
  · exact above_of_child? (by decide) hc
  · exact above_of_child? (by decide) hc

theorem above_of_mem_parts (hc : c ∈ n.parts) : n.Above c := by
  unfold parts at hc
  split at hc
  · exact .single (holds_of_mem_phrases (List.mem_of_mem_filter hc))
  · exact above_of_mem_sides hc
  · exact above_of_mem_sides hc
  · exact above_of_mem_statements hc
  · exact .single (holds_of_mem_phrases (List.mem_of_mem_filter hc))
  · rcases List.mem_append.mp hc with hc | hc
    · exact above_of_child? (by decide) hc
    · exact above_of_mem_branches hc
  · cases hc

end Node

namespace Site

/-- The items' places in source order; that they are prepared backwards shows only
in which of several failures is reported. -/
theorem ofFile_eq_ok_iff {root : Node} {sites : List Site} :
    ofFile root = .ok sites ↔ root.items.mapM ofItem = .ok sites := by
  have hr : ofFile root = .ok sites ↔
      root.items.reverse.mapM ofItem = .ok sites.reverse := by
    rw [ofFile]
    cases root.items.reverse.mapM ofItem with
    | error e => simp [Except.map]
    | ok ss => simp [Except.map, List.reverse_eq_iff]
  rw [hr, mapM_eq_ok_iff, mapM_eq_ok_iff, List.forall₂_reverse_iff]

/-- The node of a place lies in a tree. -/
def Within (tree : SyntaxTree) : Site → Prop
  | item n => n ∈ tree.root.preorder
  | function n => n ∈ tree.root.preorder
  | expression n => n ∈ tree.root.preorder
  | word n => n ∈ tree.root.preorder
  | absent => True
  | imports _ => True

/-- The node of a place, if it is that of a node. -/
def node? : Site → Option Node
  | item n => some n
  | function n => some n
  | expression n => some n
  | word n => some n
  | absent => none
  | imports _ => none

theorem node?_ofItem {n m : Node} {s : Site} (h : ofItem n = .ok s) (hm : s.node? = some m) :
    m = n := by
  unfold ofItem at h
  split at h
  · obtain ⟨t, _, rfl⟩ := map_eq_ok_iff.mp h
    cases hm
  · cases h
    exact (Option.some.inj hm).symm

/-- Where a place leads, the walk comes to nodes below its own. -/
theorem above_of_expand {s t : Site} {sites : List Site} {m : Node} (h : s.expand = .ok sites)
    (ht : t ∈ sites) (hm : t.node? = some m) : ∃ n, s.node? = some n ∧ n.Above m := by
  have entered : ∀ {n : Node} {field : String}, field ≠ "" → t ∈ entering n field → n.Above m := by
    intro n field hfield ht
    obtain ⟨c, hc, rfl⟩ := List.mem_map.mp ht
    cases hm
    exact Node.above_of_child? hfield hc
  have nested : ∀ {n : Node}, n.bodyItems.mapM ofItem = .ok sites → n.Above m := by
    intro n hn
    obtain ⟨c, hc, ho⟩ := exists_of_mem_mapM hn ht
    cases node?_ofItem ho hm
    exact Node.above_of_mem_bodyItems hc
  cases s with
  | item n =>
    refine ⟨n, rfl, ?_⟩
    simp only [Site.expand] at h
    split at h
    · split at h
      · cases h; cases ht
      · next newName ha =>
        cases h
        rcases List.mem_pair.mp ht with rfl | rfl
        · cases hc : n.child? "name" with
          | none => rw [hc] at hm; cases hm
          | some c =>
            rw [hc] at hm
            cases hm
            exact .single (Node.holds_of_child? (by decide) hc)
        · cases hm
          exact .single (Node.holds_of_child? (by decide) ha)
    · cases h; exact entered (by decide) ht
    · cases h; exact entered (by decide) ht
    · cases h; exact entered (by decide) ht
    · exact nested h
    · exact nested h
    · cases h
      obtain ⟨c, hc, rfl⟩ := List.mem_map.mp ht
      cases hm
      exact Node.above_of_mem_bodyItems (List.mem_of_mem_filter hc)
    · cases h; cases ht
  | function n => cases h; exact ⟨n, rfl, entered (by decide) ht⟩
  | expression n =>
    cases h
    obtain ⟨c, hc, rfl⟩ := List.mem_map.mp ht
    cases hm
    exact ⟨n, rfl, Node.above_of_mem_parts hc⟩
  | word n => cases h; cases ht
  | absent => cases h; cases ht
  | imports u =>
    cases h
    obtain ⟨v, _, rfl⟩ := List.mem_map.mp ht
    cases hm

variable {tree : SyntaxTree}

theorem within_iff {s : Site} :
    s.Within tree ↔ ∀ n, s.node? = some n → n ∈ tree.root.preorder := by
  cases s <;> simp [Within, node?]

theorem within_ofFile {sites : List Site} (h : ofFile tree.root = .ok sites) :
    ∀ s ∈ sites, s.Within tree := by
  intro s hs
  obtain ⟨n, hn, ho⟩ := exists_of_mem_mapM (ofFile_eq_ok_iff.mp h) hs
  refine within_iff.mpr fun m hm => ?_
  cases node?_ofItem ho hm
  exact Node.mem_preorder_of_mem_children (Node.holds_of_mem_items hn).1 _
    (Node.mem_preorder_self _)

/-- Where a place leads lies in the same tree. -/
theorem Within.expand {s : Site} {sites : List Site} (hs : s.Within tree)
    (h : s.expand = .ok sites) : ∀ t ∈ sites, t.Within tree := by
  intro t ht
  refine within_iff.mpr fun m hm => ?_
  obtain ⟨n, hn, habove⟩ := above_of_expand h ht hm
  exact habove.mem_preorder (within_iff.mp hs n hn)

/-- Through a sound cache every place of the tree has its plain fingerprint. -/
theorem cached_sound {s : Site} {cache : Cache} (hs : s.Within tree)
    (hc : cache.Sound tree) :
    (s.cached cache).1 = s.fingerprint? ∧ (s.cached cache).2.Sound tree := by
  have ofNode : ∀ n ∈ tree.root.preorder,
      some (cache.ofNode n).1 = some n.fingerprint ∧ (cache.ofNode n).2.Sound tree := by
    intro n hn
    obtain ⟨hf, hc⟩ := Cache.ofNode_sound n cache hc hn
    exact ⟨congrArg some hf, hc⟩
  cases s with
  | item n => exact ofNode n hs
  | function n => exact ofNode n hs
  | expression n => exact ofNode n hs
  | word n => exact ofNode n hs
  | absent => exact ⟨rfl, hc⟩
  | imports t =>
    obtain ⟨hf, hc⟩ := Cache.ofImport_sound t cache hc
    exact ⟨congrArg some hf, hc⟩

end Site

end RustMetrics
