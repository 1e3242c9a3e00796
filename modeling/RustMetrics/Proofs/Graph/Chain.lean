import Mathlib.Data.List.Infix
import RustMetrics.Proofs.Graph.OwnShape
import RustMetrics.Proofs.Graph.Revisit
import RustMetrics.Proofs.Text.Utf8

/-! The graph of a file with one `use` declaration that has no braces. Each segment of the path is
a record that holds the rest of the path, so the records are a chain. Segments can be equal,
as in `a::a::a`, but the rests are not: each is smaller than the one before. The walk goes down
the chain and adds an edge and a vertex for each segment. -/

namespace RustMetrics

namespace Node

/-- The segments of a path that may be left out, outermost first. A segment is any node that is
no path itself, with a text in UTF-8. -/
inductive Segmented : Option Node → List String → Prop
  | absent : Segmented none []
  | word {n : Node} {s : String} : n.kind ≠ "scoped_identifier" → n.text = Utf8.encode s →
      Segmented (some n) [s]
  | qualified {n last : Node} {ss : List String} {s : String} : n.kind = "scoped_identifier" →
      Segmented (n.child? "path") ss → n.child? "name" = some last →
      last.text = Utf8.encode s → Segmented (some n) (ss ++ [s])

/-- A clause without braces, and how many segments it has. A star counts as one. -/
inductive Unbraced : Node → Nat → Prop
  | path {n : Node} {ss : List String} :
      n.kind ∉ ["use_declaration", "use_as_clause", "use_wildcard", "scoped_use_list", "use_list"] →
      Segmented (some n) ss → Unbraced n ss.length
  | renamed {n newName : Node} {ss : List String} {s : String} : n.kind = "use_as_clause" →
      Segmented (n.child? "path") ss → ss ≠ [] → n.child? "alias" = some newName →
      newName.text = Utf8.encode s → Unbraced n ss.length
  | glob {n : Node} {ss : List String} : n.kind = "use_wildcard" →
      Segmented n.phrases.head? ss → Unbraced n (ss.length + 1)

/-- A `use` declaration without braces whose path has so many segments. -/
structure ImportsPath (n : Node) (k : Nat) : Prop where
  kind : n.kind = "use_declaration"
  argument : ∃ clause, n.child? "argument" = some clause ∧ clause.Unbraced k

end Node

namespace ImportTree

variable {n : Node} {path : Option Node} {ss : List String} {last : ImportTree} {k : Nat}

theorem segmentsOf_of_scoped {name : Node} {s : String} (hk : n.kind = "scoped_identifier")
    (hp : segments (n.child? "path") = .ok ss) (hn : n.child? "name" = some name)
    (hs : name.text = Utf8.encode s) : segmentsOf n = .ok (s :: ss.reverse) := by
  have hname : Node.requiredText (n.child? "name") = .ok s := by
    rw [hn]
    exact decoded_eq_ok_iff.mpr hs
  rw [segmentsOf_eq, if_pos hk, hname]
  cases hpath : n.child? "path" with
  | none =>
    rw [hpath] at hp
    cases hp
    rfl
  | some before =>
    rw [hpath] at hp
    obtain ⟨rs, hrs, rfl⟩ := map_eq_ok_iff.mp hp
    rw [List.reverse_reverse]
    show (segmentsOf before >>= fun rest => Except.ok (s :: rest)) = _
    rw [hrs]
    rfl

theorem segments_of_segmented (h : Node.Segmented path ss) : segments path = .ok ss := by
  induction h with
  | absent => rfl
  | word hk hs =>
    rw [segments, segmentsOf_eq, if_neg hk, decoded_eq_ok_iff.mpr hs]
    rfl
  | qualified hk _ hn hs ih =>
    rw [segments, segmentsOf_of_scoped hk ih hn hs]
    exact congrArg Except.ok (by simp)

theorem withPath_of_segmented (h : Node.Segmented path ss) (rest : ImportTree) :
    withPath path rest = .ok (under ss rest) := by
  rw [withPath, segments_of_segmented h]
  rfl

theorem read_of_word {s : String}
    (hk : n.kind ∉
      ["use_declaration", "use_as_clause", "use_wildcard", "scoped_use_list", "use_list"])
    (hw : n.kind ≠ "scoped_identifier") (hs : n.text = Utf8.encode s) :
    read n = .ok (node .name s []) := by
  simp only [List.mem_cons, List.not_mem_nil, or_false, not_or] at hk
  obtain ⟨h₁, h₂, h₃, h₄, h₅⟩ := hk
  rw [read_eq]
  split
  · contradiction
  · contradiction
  · contradiction
  · contradiction
  · contradiction
  · contradiction
  · rw [decoded_eq_ok_iff.mpr hs]
    rfl

/-- A clause without braces is read as a chain: a record for each segment but the last, and one
at the end that leads nowhere. -/
theorem exists_chain_of_unbraced (h : n.Unbraced k) :
    ∃ ss last, read n = .ok (under ss last) ∧ last.branches = [] ∧ last.Known ∧
      ss.length + 1 = k := by
  cases h with
  | path hk hss =>
    cases hss with
    | @word _ s hw hs =>
      exact ⟨[], node .name s [], read_of_word hk hw hs, rfl, known_leaf s (by simp), rfl⟩
    | @qualified _ name ss s hq hp hn hs =>
      have hname : Node.requiredText (some name) = .ok s := decoded_eq_ok_iff.mpr hs
      refine ⟨ss, node .name s [], ?_, rfl, known_leaf s (by simp), by simp⟩
      rw [read_eq]
      simp only [hq, hn, hname]
      exact withPath_of_segmented hp _
  | @renamed newName ss s hk hp hne ha hs =>
    obtain ⟨before, final, rfl⟩ : ∃ before final, ss = before ++ [final] :=
      ⟨_, _, (List.dropLast_concat_getLast hne).symm⟩
    have hname : Node.requiredText (some newName) = .ok s := decoded_eq_ok_iff.mpr hs
    refine ⟨before, node .rename final [segment final, segment s], ?_, rfl,
      known_pair final (by simp) (known_segment final) (known_segment s), by simp⟩
    rw [read_eq]
    simp only [hk, ha, hname, segments_of_segmented hp]
    show ImportTree.renamed (before ++ [final]) s = _
    rw [ImportTree.renamed, List.getLast?_concat, List.dropLast_concat]
  | @glob ss hk hp =>
    refine ⟨ss, node .glob "*" [], ?_, rfl, known_leaf "*" (by simp), rfl⟩
    rw [read_eq]
    simp only [hk]
    exact withPath_of_segmented hp _

/-- The rest of a chain is a part of the chain before it. -/
theorem shape_under_mem (s : String) (ss : List String) (last : ImportTree) :
    (under ss last).shape ∈ (under (s :: ss) last).shape.children := by
  show _ ∈ shapes [segment s, under ss last]
  rw [shapes, shapes, shapes]
  simp

/-- The rests of a chain all differ, since each holds the next. -/
theorem nodup_shapes_tails (ss : List String) (last : ImportTree) :
    (ss.tails.map fun rest => (under rest last).shape).Nodup := by
  have smaller : ∀ (ss : List String), ∀ rest ∈ ss.tails,
      sizeOf (under rest last).shape ≤ sizeOf (under ss last).shape := by
    intro ss
    induction ss with
    | nil =>
      intro rest hrest
      rw [List.mem_singleton.mp hrest]
    | cons s ss ih =>
      intro rest hrest
      rcases List.mem_cons.mp hrest with rfl | hrest
      · exact Nat.le_refl _
      · have hlt := Shape.sizeOf_lt_of_mem_children (shape_under_mem s ss last)
        exact Nat.le_trans (ih rest hrest) (Nat.le_of_lt hlt)
  induction ss with
  | nil => exact List.nodup_singleton _
  | cons s ss ih =>
    refine List.nodup_cons.mpr ⟨fun hmem => ?_, ih⟩
    obtain ⟨rest, hrest, hsame⟩ := List.mem_map.mp hmem
    have hsize := congrArg sizeOf hsame
    have hle := smaller ss rest hrest
    have hlt := Shape.sizeOf_lt_of_mem_children (shape_under_mem s ss last)
    dsimp only at hsize
    omega

end ImportTree

theorem Site.meets_under (last : ImportTree) {ss rest : List String} (h : rest <:+ ss) :
    (Site.imports (.under ss last)).Meets (.imports (.under rest last)) := by
  obtain ⟨before, rfl⟩ := h
  induction before with
  | nil => exact .refl
  | cons s before ih => exact .head ⟨_, rfl, List.mem_singleton.mpr rfl⟩ ih

namespace Graph

open ImportTree

/-- The walk goes down a chain of records whose vertices are all new and different. -/
theorem exists_visits_chain {ss : List String} {last : ImportTree} (hlast : last.branches = [])
    {g : Graph Fingerprint} (p : Fingerprint)
    (h : ((ss.tails.map fun rest => (under rest last).fingerprint) ++ g.vertices).Nodup) :
    ∃ g', Visits g p [.imports (under ss last)] g' ∧
      g'.edgeCount = g.edgeCount + (ss.length + 1) ∧
      g'.nodeCount = g.nodeCount + (ss.length + 1) := by
  induction ss generalizing g p with
  | nil =>
    have hnew : last.fingerprint ∉ g.vertices := (List.nodup_cons.mp h).1
    have hleaf : (Site.imports last).expand = .ok [] := by rw [Site.expand, hlast, List.map_nil]
    refine ⟨g.link p last.fingerprint, .entered rfl hnew hleaf .nil .nil, ?_, ?_⟩
    · exact edgeCount_link g p _
    · exact nodeCount_link_of_notMem hnew
  | cons s ss ih =>
    obtain ⟨hfirst, hrest⟩ := List.nodup_cons.mp h
    have hnew : (under (s :: ss) last).fingerprint ∉ g.vertices := fun hm =>
      hfirst (List.mem_append_right _ hm)
    have hlink : ((ss.tails.map fun rest => (under rest last).fingerprint) ++
        (g.link p (under (s :: ss) last).fingerprint).vertices).Nodup := by
      rw [link_vertices_of_notMem hnew]
      exact List.perm_middle.nodup_iff.mpr h
    obtain ⟨g', hvisits, hedges, hnodes⟩ := ih (under (s :: ss) last).fingerprint hlink
    refine ⟨g', .entered rfl hnew rfl hvisits .nil, ?_, ?_⟩
    · rw [hedges, edgeCount_link, List.length_cons]
      omega
    · rw [hnodes, nodeCount_link_of_notMem hnew, List.length_cons]
      omega

variable {tree : SyntaxTree} {n : Node} {k : Nat}

/-- No record of an import has the shape of a file that holds a `use` declaration. -/
theorem shape_ne_of_known {t : ImportTree} (ht : t.Known) (hn : n ∈ tree.root.items)
    (hk : n.kind = "use_declaration") : t.shape ≠ tree.root.shape := by
  intro heq
  have hmem := Node.shape_mem_of_mem_items hn
  rw [← heq] at hmem
  have hkind := ht.itemKind_of_mem_children hmem
  rw [Node.itemKind, hk] at hkind
  cases hkind

theorem exists_ofFile_chain (hitems : tree.root.items = [n]) (hn : n.ImportsPath k) :
    ∃ ss last, Site.ofFile tree.root = .ok [.imports (under ss last)] ∧ last.branches = [] ∧
      last.Known ∧ ss.length + 1 = k := by
  obtain ⟨clause, ha, hclause⟩ := hn.argument
  obtain ⟨ss, last, hread, hlast⟩ := exists_chain_of_unbraced hclause
  refine ⟨ss, last, ?_, hlast⟩
  have hkind : n.itemKind = .use := by rw [Node.itemKind, hn.kind]; rfl
  have hitem : Site.ofItem n = .ok (.imports (under ss last)) := by
    rw [Site.ofItem, if_pos hkind, read_eq]
    simp only [hn.kind, ha, hread]
    rfl
  rw [Site.ofFile_eq_ok_iff, hitems, List.mapM_cons, hitem]
  rfl

/-- The records of a chain and the file have different shapes, hence different vertices. -/
theorem nodup_chain {ss : List String} {last : ImportTree}
    (hs : Site.ofFile tree.root = .ok [.imports (under ss last)]) (hlast : last.Known)
    (hn : n ∈ tree.root.items) (hk : n.kind = "use_declaration")
    (hi : Set.InjOn Shape.fingerprint tree.shapes) :
    ((ss.tails.map fun rest => (under rest last).fingerprint) ++
      [tree.root.fingerprint]).Nodup := by
  have hshapes : ((ss.tails.map fun rest => (under rest last).shape) ++
      [tree.root.shape]).Nodup := by
    refine List.nodup_append.mpr ⟨nodup_shapes_tails ss last, List.nodup_singleton _, ?_⟩
    intro x hx y hy
    obtain ⟨rest, _, rfl⟩ := List.mem_map.mp hx
    rw [List.mem_singleton.mp hy]
    exact shape_ne_of_known (hlast.under rest) hn hk
  have hin : ∀ x ∈ (ss.tails.map fun rest => (under rest last).shape) ++ [tree.root.shape],
      x ∈ tree.shapes := by
    intro x hx
    rcases List.mem_append.mp hx with hx | hx
    · obtain ⟨rest, hrest, rfl⟩ := List.mem_map.mp hx
      have hmeets := Site.meets_under last ((List.mem_tails rest ss).mp hrest)
      exact .inr ⟨_, ⟨_, hs, _, List.mem_singleton.mpr rfl, hmeets⟩, rfl⟩
    · exact .inl (List.mem_singleton.mp hx)
  have hmap := hshapes.map_on (f := Shape.fingerprint) fun x hx y hy => hi (hin x hx) (hin y hy)
  simpa only [List.map_append, List.map_map, List.map_singleton, Function.comp_def,
    ImportTree.fingerprint_shape, Node.fingerprint_shape] using hmap

/-- The graph of a file whose only item imports a path of `k` segments is a path of `k` edges from
the file on, as long as no two of its shapes share a fingerprint. -/
theorem counts_of_single_path (hitems : tree.root.items = [n]) (hn : n.ImportsPath k)
    (hi : Set.InjOn Shape.fingerprint tree.shapes) :
    ∃ g, ofFile tree = .ok g ∧ g.components = 1 ∧ g.nodeCount = k + 1 ∧ g.edgeCount = k ∧
      g.complexity = 1 := by
  obtain ⟨ss, last, hs, hends, hknown, hlen⟩ := exists_ofFile_chain hitems hn
  have hvertices := nodup_chain hs hknown (hitems ▸ List.mem_singleton.mpr rfl) hn.kind hi
  obtain ⟨g, hvisits, hedges, hnodes⟩ := exists_visits_chain hends tree.root.fingerprint
    (g := (empty.setRoot tree.root.fingerprint).setComponents tree.root.items.length) hvertices
  have hg : ofFile tree = .ok g := ofFile_eq_ok_iff_visits.mpr ⟨_, hs, hvisits⟩
  have hcomponents : g.components = 1 := by rw [(counts_ofFile hg).1, hitems]; rfl
  have hedges : g.edgeCount = 0 + (ss.length + 1) := hedges
  have hnodes : g.nodeCount = 1 + (ss.length + 1) := hnodes
  refine ⟨g, hg, hcomponents, by omega, by omega, ?_⟩
  rw [complexity, hcomponents]
  omega

/-- `use a::a::a as b;` -/
def repeatedUse : Node :=
  .phrase 1 "use_declaration" "" "use a::a::a as b;"
    [.token 2 "use",
      .phrase 3 "use_as_clause" "argument" "a::a::a as b"
        [.phrase 4 "scoped_identifier" "path" "a::a::a"
          [.phrase 5 "scoped_identifier" "path" "a::a"
            [.phrase 6 "identifier" "path" "a" [], .token 7 "::",
              .phrase 8 "identifier" "name" "a" []],
            .token 9 "::", .phrase 10 "identifier" "name" "a" []],
          .token 11 "as", .phrase 12 "identifier" "alias" "b" []],
      .token 13 ";"]

def repeatedPath : SyntaxTree where
  root := .phrase 0 "source_file" "" "use a::a::a as b;" [repeatedUse]
  distinct := by decide +kernel

def repeatedPathLines : List ShapeLine :=
  [⟨"use", "use", [], 0x7b369db95f391987⟩, ⟨"identifier", "a", [], 0x860a8e2b41752e96⟩,
    ⟨"::", "::", [], 0xf34f0f22875b42e3⟩, ⟨"identifier", "b", [], 0x1937417587c64e9f⟩,
    ⟨"scoped_identifier", "", [1, 2, 1], 0xad78b7ff73b3d10f⟩,
    ⟨"scoped_identifier", "", [4, 2, 1], 0x092df445ad3858c6⟩,
    ⟨"as", "as", [], 0xd5cae6dda640041c⟩, ⟨"use_as_clause", "", [5, 6, 3], 0x0dd90960e18eded5⟩,
    ⟨";", ";", [], 0x083a4c4b079a245c⟩, ⟨"use_declaration", "", [0, 7, 8], 0x3039b19281a38387⟩,
    ⟨"source_file", "", [9], 0x3935c4662f8a0887⟩, ⟨"use_rename", "", [1, 3], 0x47ab77a8c0aac178⟩,
    ⟨"use_path", "", [1, 11], 0x9daede6adac831a5⟩, ⟨"use_path", "", [1, 12], 0xe2dce7f9f64ba961⟩]

theorem importsPath_repeatedUse : repeatedUse.ImportsPath 3 := by
  have ha : "a".toUTF8.toList = Utf8.encode "a" := by decide +kernel
  have hb : "b".toUTF8.toList = Utf8.encode "b" := by decide +kernel
  refine ⟨rfl, _, rfl, ?_⟩
  refine @Node.Unbraced.renamed _ _ ["a", "a", "a"] "b" rfl ?_ (by decide) rfl hb
  refine @Node.Segmented.qualified _ _ ["a", "a"] "a" rfl ?_ rfl ha
  refine @Node.Segmented.qualified _ _ ["a"] "a" rfl ?_ rfl ha
  exact Node.Segmented.word (by decide) ha

theorem injOn_shapes_repeatedPath : Set.InjOn Shape.fingerprint repeatedPath.shapes := by
  have hl : ShapeLine.allCorrect [] repeatedPathLines = true := by decide +kernel
  refine (Shape.injOn_ofLines hl (by decide)).mono ?_
  have hread : ImportTree.read repeatedUse =
      .ok (under ["a", "a"] (.node .rename "a" [segment "a", segment "b"])) :=
    eq_ok_of_toOption (by decide +kernel)
  have hs : Site.ofFile repeatedPath.root =
      .ok [.imports (under ["a", "a"] (.node .rename "a" [segment "a", segment "b"]))] := by
    change ((ImportTree.read repeatedUse).map Site.imports >>= _).map _ = _
    rw [hread]
    rfl
  rintro x (rfl | ⟨s, ⟨sites, hs', a, ha, hm⟩, hx⟩)
  · exact List.mem_of_getElem? (i := 10) rfl
  rw [hs] at hs'
  cases hs'
  cases List.mem_singleton.mp ha
  rcases (Site.meets_iff rfl).mp hm with rfl | ⟨b, hb, hm⟩
  · exact List.mem_of_getElem? (i := 13) (hx ▸ rfl)
  cases List.mem_singleton.mp hb
  rcases (Site.meets_iff rfl).mp hm with rfl | ⟨c, hc, hm⟩
  · exact List.mem_of_getElem? (i := 12) (hx ▸ rfl)
  cases List.mem_singleton.mp hc
  rcases (Site.meets_iff rfl).mp hm with rfl | ⟨_, ⟨⟩, _⟩
  exact List.mem_of_getElem? (i := 11) (hx ▸ rfl)

/-- Three equal segments are three edges: no rest of the path is taken for another. -/
theorem counts_of_repeatedPath : repeatedUse.ImportsPath 3 ∧ ∃ g, ofFile repeatedPath = .ok g ∧
    g.components = 1 ∧ g.nodeCount = 4 ∧ g.edgeCount = 3 ∧ g.complexity = 1 :=
  ⟨importsPath_repeatedUse,
    counts_of_single_path rfl importsPath_repeatedUse injOn_shapes_repeatedPath⟩

end Graph

end RustMetrics
