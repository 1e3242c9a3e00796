import RustMetrics.Proofs.Graph.Gate

/-! What a walk does not know, it leaves alone. Any node can stand anywhere in a tree and lack any
part. Two things only can go wrong: a `use` declaration that cannot be read, and an
`extern crate` that gives a new name to nothing. Without these every place leads on to places
that are there, no step of the walk fails, and a place that is of no known kind, or without
the part that would be entered, is a leaf of the graph. -/

namespace RustMetrics

/-- Every `use` declaration of a file can be read, and every `extern crate` with a new name has
an old one. -/
structure SyntaxTree.Readable (tree : SyntaxTree) : Prop where
  imports : ∀ n ∈ tree.root.preorder, n.kind = "use_declaration" → ∃ t, ImportTree.read n = .ok t
  crates : ∀ n ∈ tree.root.preorder, n.kind = "extern_crate_declaration" →
    n.child? "alias" ≠ none → n.child? "name" ≠ none

namespace Node

variable {n : Node}

theorem parts_of_not_isOpen (h : isOpen n.kind = false) : n.parts = [] := by
  simp only [isOpen, Bool.or_eq_false_iff, beq_eq_false_iff_ne] at h
  unfold parts
  split <;> simp_all

end Node

namespace Site

/-- A place that is not looked into: it is of no known kind, or the part is missing that a walk
would go on with. -/
inductive Closed : Site → Prop
  | item {n : Node} :
      n.itemKind ∈ [.type, .struct, .enum, .union, .trait, .macroCall, .other] → Closed (item n)
  | crate {n : Node} : n.itemKind = .externCrate → n.child? "alias" = none → Closed (item n)
  | value {n : Node} : n.itemKind ∈ [.static, .const] → n.child? "value" = none → Closed (item n)
  | body {n : Node} : n.itemKind ∈ [.fn, .mod, .foreignMod, .impl] → n.child? "body" = none →
      Closed (item n)
  | function {n : Node} : n.child? "body" = none → Closed (function n)
  | word {n : Node} : Closed (word n)
  | expression {n : Node} : Node.isOpen n.kind = false → Closed (expression n)
  | list {n : Node} : n.kind ∈ ["array_expression", "block", "break_expression"] →
      n.phrases = [] → Closed (expression n)
  | assignment {n : Node} : n.kind ∈ ["assignment_expression", "compound_assignment_expr"] →
      n.child? "left" = none → n.child? "right" = none → Closed (expression n)
  | branch {n : Node} : n.kind = "if_expression" → n.child? "condition" = none →
      n.child? "consequence" = none → n.child? "alternative" = none → Closed (expression n)

theorem Closed.expand {s : Site} (h : s.Closed) : s.expand = .ok [] := by
  cases h with
  | @item n hk =>
    rw [Site.expand]
    cases hi : n.itemKind <;> simp [hi] at hk ⊢
  | crate hk ha => simp only [Site.expand, hk, ha]
  | value hk hv =>
    rcases List.mem_pair.mp hk with hk | hk <;> simp [Site.expand, hk, entering, hv]
  | @body n hk hb =>
    simp only [List.mem_cons, List.not_mem_nil, or_false] at hk
    have hitems : n.bodyItems = [] := by rw [Node.bodyItems, hb]
    rcases hk with hk | hk | hk | hk <;>
      simp [Site.expand, hk, entering, hb, hitems, Node.methods] <;> rfl
  | function hb => simp [Site.expand, entering, hb]
  | word => rfl
  | expression hk => rw [Site.expand, Node.parts_of_not_isOpen hk, List.map_nil]
  | list hk hp =>
    simp only [List.mem_cons, List.not_mem_nil, or_false] at hk
    rcases hk with hk | hk | hk <;> simp [Site.expand, Node.parts, hk, hp, Node.statements]
  | assignment hk hl hr =>
    rcases List.mem_pair.mp hk with hk | hk <;>
      simp [Site.expand, Node.parts, hk, hl, hr, Node.sides]
  | branch hk hc hq ha =>
    simp [Site.expand, Node.parts, hk, hc, hq, ha, Node.branches, Node.elseTarget?]

variable {tree : SyntaxTree}

theorem exists_ofItem (h : tree.Readable) {n : Node} (hn : n ∈ tree.root.preorder) :
    ∃ s, ofItem n = .ok s ∧ s ≠ absent := by
  unfold ofItem
  split
  · next hk =>
    obtain ⟨t, ht⟩ := h.imports n hn (ItemKind.eq_of_ofNodeKind_eq hk (by decide))
    exact ⟨imports t, by rw [ht]; rfl, by simp⟩
  · exact ⟨item n, rfl, by simp⟩

theorem exists_mapM_ofItem (h : tree.Readable) {ns : List Node}
    (hns : ∀ n ∈ ns, n ∈ tree.root.preorder) :
    ∃ sites, ns.mapM ofItem = .ok sites ∧ absent ∉ sites := by
  obtain ⟨sites, hsites⟩ := exists_mapM_eq_ok_iff.mpr fun n hn => by
    obtain ⟨s, hs, _⟩ := exists_ofItem h (hns n hn)
    exact ⟨s, hs⟩
  refine ⟨sites, hsites, fun hmem => ?_⟩
  obtain ⟨n, hn, ho⟩ := exists_of_mem_mapM hsites hmem
  obtain ⟨s, hs, hne⟩ := exists_ofItem h (hns n hn)
  rw [ho] at hs
  exact hne (Except.ok.inj hs).symm

theorem absent_notMem_map {f : Node → Site} (ns : List Node) (hf : ∀ n, f n ≠ absent) :
    absent ∉ ns.map f := by
  intro hmem
  obtain ⟨n, _, hn⟩ := List.mem_map.mp hmem
  exact hf n hn

/-- Where a place leads can be prepared, and all of it is there. -/
theorem exists_expand (h : tree.Readable) {s : Site} (hs : s.Within tree) :
    ∃ sites, s.expand = .ok sites ∧ absent ∉ sites := by
  have mapped : ∀ (f : Node → Site) (ns : List Node), (∀ n, f n ≠ absent) →
      ∃ sites, Except.ok (ε := Failure) (ns.map f) = .ok sites ∧ absent ∉ sites :=
    fun f ns hf => ⟨_, rfl, absent_notMem_map ns hf⟩
  have nested : ∀ n ∈ tree.root.preorder,
      ∃ sites, n.bodyItems.mapM ofItem = .ok sites ∧ absent ∉ sites := by
    intro n hn
    exact exists_mapM_ofItem h fun c hc => (Node.above_of_mem_bodyItems hc).mem_preorder hn
  cases s with
  | item n =>
    simp only [Site.expand]
    split
    · next hk =>
      cases ha : n.child? "alias" with
      | none => exact ⟨[], rfl, List.not_mem_nil⟩
      | some newName =>
        obtain ⟨name, hname⟩ := Option.ne_none_iff_exists'.mp
          (h.crates n hs (ItemKind.eq_of_ofNodeKind_eq hk (by decide)) (by simp [ha]))
        refine ⟨[word name, word newName], ?_, by simp⟩
        rw [hname]
        rfl
    · exact mapped expression _ (by simp)
    · exact mapped expression _ (by simp)
    · exact mapped expression _ (by simp)
    · exact nested n hs
    · exact nested n hs
    · exact mapped function _ (by simp)
    · exact ⟨[], rfl, List.not_mem_nil⟩
  | function n => exact mapped expression _ (by simp)
  | expression n => exact mapped expression _ (by simp)
  | word n => exact ⟨[], rfl, List.not_mem_nil⟩
  | absent => exact ⟨[], rfl, List.not_mem_nil⟩
  | imports t =>
    refine ⟨_, rfl, fun hmem => ?_⟩
    obtain ⟨u, _, hu⟩ := List.mem_map.mp hmem
    cases hu

theorem eq_absent_of_fingerprint? {s : Site} (h : s.fingerprint? = none) : s = absent := by
  cases s with
  | absent => rfl
  | _ => cases h

end Site

namespace Walk

variable {tree : SyntaxTree} {w u : Walk}

/-- Every place that is pending is there. -/
def Present (w : Walk) : Prop := ∀ p ∈ w.pending, p.2 ≠ .absent

theorem Present.next (hp : w.Present) (h : tree.Readable) (hf : w.Faithful tree)
    (hs : w.step = .next u) : u.Present := by
  have hm := step_moves w
  rw [hs] at hm
  cases hm with
  | seen hpending _ _ => exact fun p hp' => hp p (hpending ▸ List.mem_cons_of_mem _ hp')
  | @entered parent site rest f cache sites hpending hc _ he =>
    obtain ⟨sites', he', habsent⟩ := Site.exists_expand h (hf.cached hpending hc).1
    rw [he] at he'
    cases he'
    intro p hp'
    rcases List.mem_append.mp hp' with hp' | hp'
    · obtain ⟨s, hs, rfl⟩ := List.mem_map.mp hp'
      exact fun he => habsent (he ▸ hs)
    · exact hp p (hpending ▸ List.mem_cons_of_mem _ hp')

theorem Present.step_ne_failed (hp : w.Present) (h : tree.Readable) (hf : w.Faithful tree)
    {e : Failure} : w.step ≠ .failed u e := by
  intro hs
  have hm := step_moves w
  rw [hs] at hm
  cases hm with
  | absent hpending hc =>
    have hnone := (hf.cached hpending hc).2.1
    exact hp _ (hpending ▸ List.mem_cons_self) (Site.eq_absent_of_fingerprint? hnone)
  | refused hpending hc _ he =>
    obtain ⟨sites, he', _⟩ := Site.exists_expand h (hf.cached hpending hc).1
    rw [he] at he'
    cases he'

/-- A run from places that are there does not fail. -/
theorem Present.exists_run (hp : w.Present) (h : tree.Readable) (hf : w.Faithful tree) :
    ∃ u, w.run = (u, none) := by
  fun_induction run w with
  | case1 w u hs => exact ⟨u, rfl⟩
  | case2 w u e hs => exact absurd hs (hp.step_ne_failed h hf)
  | case3 w u hs ih => exact ih (hp.next h hf hs) (hf.next hs)

end Walk

namespace Graph

variable {tree : SyntaxTree}

theorem exists_ofFile (h : tree.Readable) : ∃ g, ofFile tree = .ok g := by
  have hitems : ∀ n ∈ tree.root.items, n ∈ tree.root.preorder := fun n hn =>
    Node.mem_preorder_of_mem_children (Node.holds_of_mem_items hn).1 _ (Node.mem_preorder_self _)
  obtain ⟨sites, hsites, habsent⟩ := Site.exists_mapM_ofItem h hitems
  have hs := Site.ofFile_eq_ok_iff.mpr hsites
  have hpresent : (Walk.start tree sites).Present := by
    intro p hp
    obtain ⟨s, hs, rfl⟩ := List.mem_map.mp hp
    exact fun he => habsent (he ▸ hs)
  obtain ⟨w, hw⟩ := hpresent.exists_run h (Walk.faithful_start hs)
  exact ⟨w.graph, Builder.build_eq_ok_iff.mpr ⟨sites, w, hs, hw, rfl⟩⟩

/-- A file has a graph if its `use` declarations can be read and its renamed crates have names,
whatever else is in it or missing from it. A vertex that is met only at places which are not
looked into is a leaf. -/
theorem unsupported_is_leaf (h : tree.Readable) : ∃ g, ofFile tree = .ok g ∧
    ∀ v ∈ g.vertices,
      (∀ o, tree.Occurs o → o.fingerprint? = some v → ∃ s, o = .place s ∧ s.Closed) →
      g.outs v = [] := by
  obtain ⟨g, hg⟩ := exists_ofFile h
  refine ⟨g, hg, fun v hv hclosed => ?_⟩
  obtain ⟨o, sites, ho, hf, he, houts, _⟩ := exists_entered hg hv
  obtain ⟨s, rfl, hs⟩ := hclosed o ho hf
  have hnil : s.expand = .ok sites := he
  rw [hs.expand] at hnil
  cases hnil
  exact houts

/-- An item of an unknown kind, with a function in it. -/
def gadget : Node := .phrase 1 "gadget" "" "f" [.phrase 2 "function_item" "body" "f" []]

/-- `use a`, without a semicolon. -/
def bareUse : Node := .phrase 3 "use_declaration" "" "a" [.phrase 4 "identifier" "argument" "a" []]

/-- `extern crate a as b`, without its words. -/
def bareCrate : Node :=
  .phrase 5 "extern_crate_declaration" "" "ab"
    [.phrase 6 "identifier" "name" "a" [], .phrase 7 "identifier" "alias" "b" []]

def oddFile : SyntaxTree where
  root := .phrase 0 "source_file" "" "faab" [gadget, bareUse, bareCrate]
  distinct := by decide +kernel

theorem readable_oddFile : oddFile.Readable := by
  have hall : (oddFile.root.preorder.all fun n =>
      (n.kind != "use_declaration" || (ImportTree.read n).toOption.isSome) &&
      (n.kind != "extern_crate_declaration" || (n.child? "name").isSome)) = true := by
    decide +kernel
  refine ⟨fun n hn hk => ?_, fun n hn hk _ => ?_⟩
  · have hread := List.all_eq_true.mp hall n hn
    rw [hk] at hread
    obtain ⟨t, ht⟩ := Option.isSome_iff_exists.mp (Bool.and_eq_true_iff.mp hread).1
    exact ⟨t, eq_ok_of_toOption ht⟩
  · have hname := List.all_eq_true.mp hall n hn
    rw [hk] at hname
    exact Option.isSome_iff_ne_none.mp (Bool.and_eq_true_iff.mp hname).2

def oddLines : List ShapeLine :=
  [⟨"function_item", "f", [], 0x5e0f4585ba1fac69⟩, ⟨"gadget", "", [0], 0x95c958cc66703639⟩,
    ⟨"identifier", "a", [], 0x860a8e2b41752e96⟩, ⟨"identifier", "b", [], 0x1937417587c64e9f⟩,
    ⟨"use_declaration", "", [2], 0x43e63b0de4a1b050⟩,
    ⟨"extern_crate_declaration", "", [2, 3], 0xbd3a30c3116f3ffe⟩,
    ⟨"source_file", "", [1, 4, 5], 0x039d86b256b067fd⟩, ⟨"use_name", "a", [], 0x63081db0cee573ad⟩]

theorem oddLines_correct : ShapeLine.allCorrect [] oddLines = true := by decide +kernel

theorem fingerprint_gadget : gadget.fingerprint = ⟨0x95c958cc66703639⟩ :=
  Node.fingerprint_of_line (i := 1) oddLines_correct rfl rfl

theorem ofFile_oddFile : Site.ofFile oddFile.root =
    .ok [.item gadget, .imports (.node .name "a" []), .item bareCrate] := by
  have hread : ImportTree.read bareUse = .ok (.node .name "a" []) :=
    eq_ok_of_toOption (by decide +kernel)
  refine Site.ofFile_eq_ok_iff.mpr (mapM_eq_ok_iff.mpr ?_)
  refine .cons rfl (.cons ?_ (.cons rfl .nil))
  show (ImportTree.read bareUse).map Site.imports = _
  rw [hread]
  rfl

/-- The vertex of the unknown item is that of no place which is looked into. -/
theorem closed_of_gadget {o : Occurrence} (ho : oddFile.Occurs o)
    (hf : o.fingerprint? = some gadget.fingerprint) : ∃ s, o = .place s ∧ s.Closed := by
  have hroot : oddFile.root.fingerprint = ⟨0x039d86b256b067fd⟩ :=
    Node.fingerprint_of_line (i := 6) oddLines_correct rfl rfl
  have hcrate : bareCrate.fingerprint = ⟨0xbd3a30c3116f3ffe⟩ :=
    Node.fingerprint_of_line (i := 5) oddLines_correct rfl rfl
  have hname : (ImportTree.node .name "a" []).fingerprint = ⟨0x63081db0cee573ad⟩ :=
    ImportTree.fingerprint_of_line (i := 7) oddLines_correct rfl rfl
  rw [fingerprint_gadget] at hf
  rcases SyntaxTree.occurs_iff.mp ho with rfl | ⟨s, rfl, sites, hs, a, ha, hmeets⟩
  · cases hroot.symm.trans (Option.some.inj hf)
  refine ⟨s, rfl, ?_⟩
  rw [ofFile_oddFile] at hs
  cases hs
  simp only [List.mem_cons, List.not_mem_nil, or_false] at ha
  rcases ha with rfl | rfl | rfl
  · rcases (Site.meets_iff rfl).mp hmeets with rfl | ⟨_, hu, _⟩
    · exact .item (by decide)
    · cases hu
  · rcases (Site.meets_iff rfl).mp hmeets with rfl | ⟨_, hu, _⟩
    · cases hname.symm.trans (Option.some.inj hf)
    · cases hu
  · rcases (Site.meets_iff rfl).mp hmeets with rfl | ⟨u, hu, hword⟩
    · cases hcrate.symm.trans (Option.some.inj hf)
    · rcases List.mem_pair.mp hu with rfl | rfl
      all_goals
        rcases (Site.meets_iff rfl).mp hword with rfl | ⟨_, hu, _⟩
        · exact .word
        · cases hu

/-- The unknown item has a vertex in the graph, and no edge leaves it. -/
theorem unsupported_is_leaf_in_oddFile : oddFile.Readable ∧
    ∃ g, ofFile oddFile = .ok g ∧ gadget.fingerprint ∈ g.vertices ∧
      g.outs gadget.fingerprint = [] := by
  obtain ⟨g, hg, hleaf⟩ := unsupported_is_leaf readable_oddFile
  obtain ⟨sites, hs, hvisits⟩ := ofFile_eq_ok_iff_visits.mp hg
  rw [ofFile_oddFile] at hs
  cases hs
  obtain ⟨f, hf, hmem⟩ := hvisits.registered _ List.mem_cons_self
  cases hf
  exact ⟨readable_oddFile, g, hg, hmem, hleaf _ hmem fun o ho hf => closed_of_gadget ho hf⟩

end Graph

end RustMetrics
