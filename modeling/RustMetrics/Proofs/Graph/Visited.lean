import Mathlib.Data.List.Forall2
import RustMetrics.Proofs.Graph.Revisit
import RustMetrics.Proofs.Node.Disjoint

/-! Every node is walked at most once. Each place on the stack has a supply: nodes of the tree
that are set aside for it and for all that it can lead to. The supplies of what a place leads
to are cut out of its own, less one node that the place takes for itself when it is visited; so
the places of a walk stand for different nodes. A node's supply is its subtree. The records of
an import are no nodes, but a declaration has at least as many nodes as its import has records. -/

namespace RustMetrics

/-- The records that an import continues with, itself included. -/
def ImportTree.Continues : ImportTree → ImportTree → Prop :=
  Relation.ReflTransGen fun t u => u ∈ t.branches

namespace Site

/-- A declaration of a file and the import that was read from it. -/
structure Declared (root d : Node) (u : ImportTree) : Prop where
  mem : d ∈ root.preorder
  use : d.itemKind = .use
  read : ImportTree.read d = .ok u

/-- The node that a place stands for: its own, or for a record of an import some node of the
declaration that it was read from. -/
inductive StandsFor (root : Node) : Site → Node → Prop
  | own {s : Site} {n : Node} : s.node? = some n → StandsFor root s n
  | record {d n : Node} {u t : ImportTree} :
      Declared root d u → u.Continues t → n ∈ d.preorder → StandsFor root (.imports t) n

/-- Nodes that are set aside for a place and for all that it can lead to. -/
inductive Supplied (root : Node) : Site → List Node → Prop
  | own {s : Site} {n : Node} :
      s.node? = some n → n ∈ root.preorder → Supplied root s n.preorder
  | absent : Supplied root .absent []
  | records {d : Node} {u t : ImportTree} {supply : List Node} :
      Declared root d u → u.Continues t → (∀ n ∈ supply, n ∈ d.preorder) →
      t.steps ≤ supply.length → Supplied root (.imports t) supply

/-- Nodes that can be shared out among several places as their supplies. -/
def Fed (root : Node) (sites : List Site) (supply : List Node) : Prop :=
  ∃ supplies, List.Forall₂ (Supplied root) sites supplies ∧ supplies.flatten.Subperm supply

variable {root n : Node} {s : Site} {sites : List Site} {supply : List Node}

theorem supplied_ofItem (h : ofItem n = .ok s) (hn : n ∈ root.preorder) :
    Supplied root s n.preorder := by
  unfold ofItem at h
  split at h
  · next hk =>
    obtain ⟨t, ht, rfl⟩ := map_eq_ok_iff.mp h
    refine .records ⟨hn, hk, ht⟩ .refl (fun _ h => h) ?_
    rw [Node.length_preorder]
    exact ImportTree.steps_read_le ht
  · cases h
    exact .own rfl hn

theorem fed_nil (root : Node) (supply : List Node) : Fed root [] supply :=
  ⟨[], .nil, List.nil_subperm⟩

theorem Fed.append {sites' : List Site} {supply' : List Node} (h : Fed root sites supply)
    (h' : Fed root sites' supply') : Fed root (sites ++ sites') (supply ++ supply') := by
  obtain ⟨supplies, hsites, hsub⟩ := h
  obtain ⟨supplies', hsites', hsub'⟩ := h'
  refine ⟨supplies ++ supplies', List.rel_append hsites hsites', ?_⟩
  rw [List.flatten_append]
  exact hsub.append hsub'

theorem Fed.split (h : Fed root (s :: sites) supply) :
    ∃ own others, Supplied root s own ∧ Fed root sites others ∧
      (own ++ others).Subperm supply := by
  obtain ⟨supplies, hsites, hsub⟩ := h
  cases hsites with
  | @cons _ own _ others hs hothers =>
    exact ⟨own, others.flatten, hs, ⟨others, hothers, List.Subperm.refl _⟩, hsub⟩

theorem mem_preorder_of_inside {cs : List Node} (h : Node.Inside cs n.children)
    (hn : n ∈ root.preorder) : ∀ c ∈ cs, c ∈ root.preorder := by
  intro c hc
  have hmem := List.mem_flatMap.mpr ⟨c, hc, c.mem_preorder_self⟩
  have hbelow := (h.trans n.inside_children).subset hmem
  rw [List.flatMap_singleton] at hbelow
  exact (Node.preorder_sublist hn).subset hbelow

/-- Nodes below a node that do not overlap bring their supplies with them. -/
theorem fed_map {place : Node → Site} (hplace : ∀ n, (place n).node? = some n)
    (hn : n ∈ root.preorder) {cs : List Node} (hcs : Node.Inside cs n.children) :
    Fed root (cs.map place) (n.children.flatMap Node.preorder) := by
  refine ⟨cs.map Node.preorder, ?_, List.flatMap_def ▸ hcs⟩
  rw [List.forall₂_map_left_iff, List.forall₂_map_right_iff, List.forall₂_same]
  exact fun c hc => .own (hplace c) (mem_preorder_of_inside hcs hn c hc)

theorem fed_mapM_ofItem (hn : n ∈ root.preorder) {cs : List Node}
    (hcs : Node.Inside cs n.children) (h : cs.mapM ofItem = .ok sites) :
    Fed root sites (n.children.flatMap Node.preorder) := by
  refine ⟨cs.map Node.preorder, ?_, List.flatMap_def ▸ hcs⟩
  have hmem := mem_preorder_of_inside hcs hn
  clear hcs
  replace h := mapM_eq_ok_iff.mp h
  induction h with
  | nil => exact .nil
  | cons hhead _ ih =>
    exact .cons (supplied_ofItem hhead (hmem _ List.mem_cons_self))
      (ih fun c hc => hmem c (List.mem_cons_of_mem _ hc))

/-- The name and the new name of a crate are different children. -/
theorem fed_crate {newName : Node} (hn : n ∈ root.preorder)
    (ha : n.child? "alias" = some newName) :
    Fed root [ofWord (n.child? "name"), word newName] (n.children.flatMap Node.preorder) := by
  have hpair : Node.Inside ((n.child? "name").toList ++ (n.child? "alias").toList) n.children :=
    n.inside_pair (by decide)
  have hmem := mem_preorder_of_inside hpair hn
  rw [ha] at hpair hmem
  have halias : Supplied root (word newName) newName.preorder :=
    .own rfl (hmem newName (by simp))
  cases hc : n.child? "name" with
  | none =>
    rw [hc] at hpair
    refine ⟨_, .cons .absent (.cons halias .nil), ?_⟩
    simpa [Node.Inside] using hpair
  | some c =>
    rw [hc] at hpair hmem
    refine ⟨_, .cons (.own rfl (hmem c (by simp))) (.cons halias .nil), ?_⟩
    simpa [Node.Inside] using hpair

/-- What a node's place leads to is supplied from below the node. -/
theorem fed_of_node (hs : s.node? = some n) (hn : n ∈ root.preorder)
    (he : s.expand = .ok sites) : Fed root sites (n.children.flatMap Node.preorder) := by
  cases s with
  | item m =>
    cases hs
    simp only [Site.expand] at he
    split at he
    · split at he
      · cases he; exact fed_nil _ _
      · next ha => cases he; exact fed_crate hn ha
    · cases he; exact fed_map (fun _ => rfl) hn (n.inside_child? "value")
    · cases he; exact fed_map (fun _ => rfl) hn (n.inside_child? "value")
    · cases he; exact fed_map (fun _ => rfl) hn (n.inside_child? "body")
    · exact fed_mapM_ofItem hn n.inside_bodyItems he
    · exact fed_mapM_ofItem hn n.inside_bodyItems he
    · cases he; exact fed_map (fun _ => rfl) hn n.inside_methods
    · cases he; exact fed_nil _ _
  | function m => cases hs; cases he; exact fed_map (fun _ => rfl) hn (n.inside_child? "body")
  | expression m => cases hs; cases he; exact fed_map (fun _ => rfl) hn n.inside_parts
  | word m => cases he; exact fed_nil _ _
  | absent => cases hs
  | imports t => cases hs

/-- Enough nodes for several records can be shared out among them. -/
theorem exists_shares (ts : List ImportTree) {supply : List Node}
    (h : ImportTree.stepsAll ts ≤ supply.length) :
    ∃ shares, List.Forall₂ (fun t share => ImportTree.steps t ≤ share.length) ts shares ∧
      shares.flatten = supply.take (ImportTree.stepsAll ts) := by
  induction ts generalizing supply with
  | nil => exact ⟨[], .nil, rfl⟩
  | cons t ts ih =>
    rw [ImportTree.stepsAll] at h
    have hrest : ImportTree.stepsAll ts ≤ (supply.drop t.steps).length := by
      rw [List.length_drop]
      omega
    obtain ⟨shares, hshares, hflat⟩ := ih hrest
    refine ⟨supply.take t.steps :: shares, .cons ?_ hshares, ?_⟩
    · rw [List.length_take]
      omega
    · rw [List.flatten_cons, hflat, ImportTree.stepsAll, List.take_add]

/-- What a record continues with is supplied from what is left of its supply. -/
theorem fed_of_record {d : Node} {u t : ImportTree} (hd : Declared root d u)
    (ht : u.Continues t) (hmem : ∀ n ∈ supply, n ∈ d.preorder)
    (hlen : ImportTree.stepsAll t.branches ≤ supply.length) :
    Fed root (t.branches.map imports) supply := by
  obtain ⟨shares, hshares, hflat⟩ := exists_shares t.branches hlen
  refine ⟨shares, ?_, hflat ▸ (List.take_sublist _ _).subperm⟩
  rw [List.forall₂_map_left_iff]
  have hsub : ∀ share ∈ shares, ∀ n ∈ share, n ∈ d.preorder := by
    intro share hshare n hn
    have hn := List.mem_flatten.mpr ⟨share, hshare, hn⟩
    rw [hflat] at hn
    exact hmem n (List.mem_of_mem_take hn)
  refine (List.forall₂_iff_zip.mpr ⟨hshares.length_eq, ?_⟩)
  intro v share hz
  have hv := List.of_mem_zip hz
  exact .records hd (ht.tail hv.1) (hsub share hv.2) (List.forall₂_zip hshares hz)

/-- A place that is there takes one node of its supply, which it stands for; what it leads to
is supplied from the others. -/
theorem Supplied.take {f : Fingerprint} (h : Supplied root s supply)
    (hf : s.fingerprint? = some f) :
    ∃ n rest, supply = n :: rest ∧ StandsFor root s n ∧
      ∀ sites, s.expand = .ok sites → Fed root sites rest := by
  cases h with
  | @own _ n hs hn =>
    refine ⟨n, n.children.flatMap Node.preorder, ?_, .own hs, ?_⟩
    · obtain ⟨l, cs⟩ := n
      exact Node.preorder_node l cs
    · exact fun sites he => fed_of_node hs hn he
  | absent => cases hf
  | @records d u t _ hd ht hmem hlen =>
    rw [ImportTree.steps_eq] at hlen
    cases supply with
    | nil => simp at hlen
    | cons n rest =>
      rw [List.length_cons, Nat.add_le_add_iff_right] at hlen
      refine ⟨n, rest, rfl, .record hd ht (hmem n List.mem_cons_self), ?_⟩
      intro sites he
      cases he
      exact fed_of_record hd ht (fun m hm => hmem m (List.mem_cons_of_mem _ hm)) hlen

end Site

namespace Walk

/-- The place that the next step takes off the stack. -/
def top? (w : Walk) : Option Site := w.pending.head?.map Prod.snd

/-- The places that a walk takes off the stack, from the first to the last. -/
def visited (w : Walk) : List Site := w.taken.filterMap top?

variable {tree : SyntaxTree} {root : Node} {w u : Walk}

theorem visited_next {parent : Fingerprint} {site : Site} {rest : List (Fingerprint × Site)}
    (hs : w.step = .next u) (hp : w.pending = (parent, site) :: rest) :
    w.visited = site :: u.visited := by
  have htop : w.top? = some site := by rw [top?, hp]; rfl
  rw [visited, taken_next hs, List.filterMap_cons_some htop, visited]

theorem visited_done (hs : w.step = .done u) : w.visited = [] := by
  rw [visited, taken_done hs, List.filterMap_nil]

/-- A step takes one node for the place it visits, and what is left supplies the places that
are then on the stack. -/
theorem fed_next {supply : List Node} (h : Site.Fed root (w.pending.map Prod.snd) supply)
    (hs : w.step = .next u) :
    ∃ site n left, w.visited = site :: u.visited ∧ site.StandsFor root n ∧
      Site.Fed root (u.pending.map Prod.snd) left ∧ (n :: left).Subperm supply := by
  have hm := step_moves w
  rw [hs] at hm
  cases hm with
  | @seen parent site rest f cache hp hc hv =>
    rw [hp, List.map_cons] at h
    obtain ⟨own, others, hown, hothers, hsub⟩ := h.split
    obtain ⟨g, hg⟩ := fingerprint?_isSome_of_cached hc
    obtain ⟨n, below, rfl, hstands, _⟩ := hown.take hg
    refine ⟨site, n, others, visited_next hs hp, hstands, hothers, ?_⟩
    exact List.Subperm.trans (((List.sublist_append_right below others).cons_cons n).subperm) hsub
  | @entered parent site rest f cache sites hp hc hv he =>
    rw [hp, List.map_cons] at h
    obtain ⟨own, others, hown, hothers, hsub⟩ := h.split
    obtain ⟨g, hg⟩ := fingerprint?_isSome_of_cached hc
    obtain ⟨n, below, rfl, hstands, hbelow⟩ := hown.take hg
    refine ⟨site, n, below ++ others, visited_next hs hp, hstands, ?_, hsub⟩
    have hsites : (sites.map (f, ·)).map Prod.snd = sites := by simp [Function.comp_def]
    rw [List.map_append, hsites]
    exact (hbelow sites he).append hothers

/-- The places of a finished walk stand for different nodes of what it was supplied with. -/
theorem exists_nodes_run {supply : List Node} (h : Site.Fed root (w.pending.map Prod.snd) supply)
    (hr : w.run = (u, none)) :
    ∃ nodes, List.Forall₂ (Site.StandsFor root) w.visited nodes ∧ nodes.Subperm supply := by
  fun_induction run w generalizing supply with
  | case1 w v hs =>
    refine ⟨[], ?_, List.nil_subperm⟩
    rw [visited_done hs]
    exact .nil
  | case2 w v e hs => cases hr
  | case3 w v hs ih =>
    obtain ⟨site, n, left, hvisited, hstands, hnext, hsub⟩ := fed_next h hs
    obtain ⟨nodes, hnodes, hsub'⟩ := ih hnext hr
    refine ⟨n :: nodes, ?_, ((List.subperm_cons n).mpr hsub').trans hsub⟩
    rw [hvisited]
    exact .cons hstands hnodes

/-- A finished walk adds an edge for each place that it visits, to the vertex of that place. -/
theorem Faithful.edges_run (h : w.Faithful tree) (hr : w.run = (u, none)) :
    u.graph.edges.toList.map (fun e => some e.child) =
      w.graph.edges.toList.map (fun e => some e.child) ++ w.visited.map Site.fingerprint? := by
  fun_induction run w with
  | case1 w v hs =>
    have hm := step_moves w
    rw [hs] at hm
    cases hm
    cases hr
    rw [visited_done hs, List.map_nil, List.append_nil]
  | case2 w v e hs => cases hr
  | case3 w v hs ih =>
    have linked : ∀ {parent site rest f cache}, w.pending = (parent, site) :: rest →
        site.cached w.cache = (some f, cache) → v.graph = w.graph.link parent f →
        v.graph.edges.toList.map (fun e => some e.child) ++ v.visited.map Site.fingerprint? =
          w.graph.edges.toList.map (fun e => some e.child) ++ w.visited.map Site.fingerprint? := by
      intro parent site rest f cache hp hc hv
      rw [visited_next hs hp, List.map_cons, (h.cached hp hc).2.1, hv, Graph.link_edges,
        Array.toList_push, List.map_append, List.append_assoc]
      rfl
    rw [ih (h.next hs) hr]
    have hm := step_moves w
    rw [hs] at hm
    cases hm with
    | seen hp hc _ => exact linked hp hc rfl
    | entered hp hc _ _ => exact linked hp hc rfl

end Walk

/-- The places of a file that the walk takes off the stack, from the first to the last. -/
def SyntaxTree.visited (tree : SyntaxTree) : List Site :=
  match Site.ofFile tree.root with
  | .error _ => []
  | .ok sites => (Walk.start tree sites).visited

namespace Graph

variable {tree : SyntaxTree} {g : Graph Fingerprint}

theorem edges_ofFile (h : ofFile tree = .ok g) :
    g.edges.toList.map (fun e => some e.child) = tree.visited.map Site.fingerprint? := by
  obtain ⟨sites, w, hs, hr, rfl⟩ := Builder.build_eq_ok_iff.mp h
  rw [(Walk.faithful_start hs).edges_run hr, SyntaxTree.visited, hs]
  rfl

theorem exists_nodes_ofFile (h : ofFile tree = .ok g) :
    ∃ nodes, List.Forall₂ (Site.StandsFor tree.root) tree.visited nodes ∧
      nodes.Subperm (tree.root.children.flatMap Node.preorder) := by
  obtain ⟨sites, w, hs, hr, rfl⟩ := Builder.build_eq_ok_iff.mp h
  have hpending : (Walk.start tree sites).pending.map Prod.snd = sites := by
    simp [Walk.start, Function.comp_def]
  have hfed : Site.Fed tree.root ((Walk.start tree sites).pending.map Prod.snd)
      (tree.root.children.flatMap Node.preorder) := by
    rw [hpending]
    exact Site.fed_mapM_ofItem tree.root.mem_preorder_self tree.root.inside_items
      (Site.ofFile_eq_ok_iff.mp hs)
  rw [SyntaxTree.visited, hs]
  exact Walk.exists_nodes_run hfed hr

/-- A file has an edge for each place that the walk visits, and these places stand for different
nodes below the root: an item, a body or an expression for its own, the records of an import for
nodes of their declaration. So there are fewer edges than nodes in the tree. -/
theorem places_stand_for_different_nodes (h : ofFile tree = .ok g) :
    g.edgeCount ≤ tree.root.preorder.length - 1 ∧
      g.edges.toList.map (fun e => some e.child) = tree.visited.map Site.fingerprint? ∧
      ∃ nodes : List Node,
        List.Forall₂ (Site.StandsFor tree.root) tree.visited nodes ∧
        (nodes.map fun n => n.label.index).Nodup ∧
        ∀ n ∈ nodes, n ∈ tree.root.preorder ∧ n.label.index ≠ tree.root.label.index := by
  obtain ⟨nodes, hnodes, hsub⟩ := exists_nodes_ofFile h
  have hedges := edges_ofFile h
  have hcount : g.edgeCount = nodes.length := by
    have hlen := congrArg List.length hedges
    rw [List.length_map, List.length_map, hnodes.length_eq] at hlen
    exact hlen
  have hroot : tree.root.preorder = tree.root :: tree.root.children.flatMap Node.preorder := by
    cases tree.root
    exact Node.preorder_node _ _
  have hall : (tree.root :: nodes).Subperm tree.root.preorder := by
    rw [hroot]
    exact (List.subperm_cons _).mpr hsub
  obtain ⟨hfirst, hrest⟩ := List.nodup_cons.mp (tree.nodup_index hall)
  refine ⟨?_, hedges, nodes, hnodes, hrest, ?_⟩
  · rw [hcount, hroot, List.length_cons]
    exact hsub.length_le
  · intro n hn
    refine ⟨hall.subset (List.mem_cons_of_mem _ hn), fun he => hfirst ?_⟩
    exact List.mem_map.mpr ⟨n, hn, he⟩

/-- `use a::b;` -/
def pathUse : Node :=
  .phrase 1 "use_declaration" "" "use a::b;"
    [.token 2 "use",
      .phrase 3 "scoped_identifier" "argument" "a::b"
        [.phrase 4 "identifier" "path" "a" [], .token 5 "::", .phrase 6 "identifier" "name" "b" []],
      .token 7 ";"]

def pathImport : SyntaxTree where
  root := .phrase 0 "source_file" "" "use a::b;" [pathUse]
  distinct := by decide +kernel

def pathImportLines : List ShapeLine :=
  [⟨"use", "use", [], 0x7b369db95f391987⟩, ⟨"identifier", "a", [], 0x860a8e2b41752e96⟩,
    ⟨"::", "::", [], 0xf34f0f22875b42e3⟩, ⟨"identifier", "b", [], 0x1937417587c64e9f⟩,
    ⟨"scoped_identifier", "", [1, 2, 3], 0x9efa5de57a8f3d81⟩,
    ⟨";", ";", [], 0x083a4c4b079a245c⟩, ⟨"use_declaration", "", [0, 4, 5], 0xda26bc2a5acca6e2⟩,
    ⟨"source_file", "", [6], 0x986cf34054cc89fc⟩, ⟨"use_name", "b", [], 0x47e01537d5990274⟩,
    ⟨"use_path", "", [1, 8], 0x1b1dd0e574c218f0⟩]

/-- The two records of the import stand for two of the seven nodes below the root. -/
theorem places_of_pathImport : ∃ g, ofFile pathImport = .ok g ∧ g.edgeCount = 2 ∧
    pathImport.root.preorder.length = 8 ∧ ∃ nodes : List Node, nodes.length = 2 ∧
      List.Forall₂ (Site.StandsFor pathImport.root) pathImport.visited nodes ∧
      (nodes.map fun n => n.label.index).Nodup := by
  have hl : ShapeLine.allCorrect [] pathImportLines = true := by decide +kernel
  have hr : pathImport.root.fingerprint = ⟨0x986cf34054cc89fc⟩ :=
    Node.fingerprint_of_line (i := 7) hl rfl rfl
  have hname : (ImportTree.node .name "b" []).fingerprint = ⟨0x47e01537d5990274⟩ :=
    ImportTree.fingerprint_of_line (i := 8) hl rfl rfl
  have hpath : (ImportTree.step "a" (.node .name "b" [])).fingerprint = ⟨0x1b1dd0e574c218f0⟩ :=
    ImportTree.fingerprint_of_line (i := 9) hl rfl rfl
  have hread : ImportTree.read pathUse = .ok (.step "a" (.node .name "b" [])) :=
    eq_ok_of_toOption (by decide +kernel)
  have hs : Site.ofFile pathImport.root = .ok [.imports (.step "a" (.node .name "b" []))] := by
    change ((ImportTree.read pathUse).map Site.imports >>= _).map _ = _
    rw [hread]
    rfl
  have hg := ofFile_of_visits hr hs (.entered (congrArg some hpath) (by decide) rfl
    (.entered (congrArg some hname) (by decide) rfl .nil .nil) .nil)
  obtain ⟨_, hedges, nodes, hnodes, hnodup, _⟩ := places_stand_for_different_nodes hg
  have hlen := congrArg List.length hedges
  rw [List.length_map, List.length_map, hnodes.length_eq] at hlen
  exact ⟨_, hg, rfl, by decide +kernel, nodes, hlen.symm, hnodes, hnodup⟩

end Graph

end RustMetrics
