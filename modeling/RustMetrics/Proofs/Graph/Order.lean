import RustMetrics.Proofs.Graph.Alone
import RustMetrics.Proofs.Graph.OwnShape
import RustMetrics.Proofs.Graph.Revisit

/-! The graph and the order in which a file declares its items. A shape is entered
only where it is met first, and where it is met decides how it is read: a
function is entered as an item and not as a statement. So the counts can depend on
the order, if two items share a shape that they read differently. Where this does not
happen, and no two shapes share a fingerprint, the counts are the same for every order.
The file's own vertex changes with the order; that no place has it too follows from how
the parser makes trees. -/

namespace RustMetrics

theorem Site.mapM_ofItem_perm {ns ns' : List Node} {sites sites' : List Site} (hp : ns.Perm ns')
    (h : ns.mapM ofItem = .ok sites) (h' : ns'.mapM ofItem = .ok sites') :
    sites.Perm sites' := by
  have kept : ∀ {ns : List Node} {sites : List Site}, ns.mapM ofItem = .ok sites →
      sites = ns.filterMap fun n => (ofItem n).toOption := by
    intro ns sites h
    induction mapM_eq_ok_iff.mp h with
    | nil => rfl
    | cons hn hr ih =>
      rw [List.filterMap_cons_some (by rw [hn]; rfl), ← ih (mapM_eq_ok_iff.mpr hr)]
  rw [kept h, kept h']
  exact hp.filterMap _

namespace SyntaxTree

/-- What a shape leads to does not depend on the item where it is met first, and no
place has the shape of the file, be it for how the parser makes trees. Items that differ
only in where they stand count as one, and within one item a shape may be read in several
ways. -/
structure ReadAlike (tree : SyntaxTree) : Prop where
  items : ∀ sites, Site.ofFile tree.root = .ok sites → ∀ a ∈ sites, ∀ b ∈ sites,
    a.bare ≠ b.bare → ∀ s t x, a.Meets s → b.Meets t → s.shape? = some x → t.shape? = some x →
    ∀ below, s.expand = .ok below →
      ∃ below', t.expand = .ok below' ∧ below'.map Site.shape? = below.map Site.shape?
  file : tree.ExtrasLoose ∨ ∀ s, tree.Meets s → s.shape? ≠ some tree.root.shape

variable {tree : SyntaxTree}

theorem ReadAlike.shape?_ne (ha : tree.ReadAlike) :
    ∀ s, tree.Meets s → s.shape? ≠ some tree.root.shape := by
  rcases ha.file with hl | hfile
  · exact fun s hs => hl.shape?_ne (fun _ hn => Node.shape_mem_of_mem_items hn) hs
  · exact hfile

theorem ReadAlike.agree {sites : List Site} {shapes : Set Shape} (ha : tree.ReadAlike)
    (hi : Set.InjOn Shape.fingerprint shapes) (hsub : tree.shapes ⊆ shapes)
    (hs : Site.ofFile tree.root = .ok sites) :
    ∀ a ∈ sites.map Site.bare, ∀ b ∈ sites.map Site.bare, a = b ∨ a.Agree b := by
  intro a ham b hbm
  obtain ⟨a, hma, rfl⟩ := List.mem_map.mp ham
  obtain ⟨b, hmb, rfl⟩ := List.mem_map.mp hbm
  refine or_iff_not_imp_left.mpr fun hne => ?_
  intro s t f hms hmt hfs hft below he
  obtain ⟨s, hs', rfl⟩ := Site.exists_meets_of_bare hms
  obtain ⟨t, ht', rfl⟩ := Site.exists_meets_of_bare hmt
  rw [Site.fingerprint?_bare, Site.fingerprint?_eq, Option.map_eq_some_iff] at hfs hft
  obtain ⟨x, hx, hfx⟩ := hfs
  obtain ⟨y, hy, hfy⟩ := hft
  -- one vertex, hence one shape
  have hxy : x = y := hi (hsub (.inr ⟨s, ⟨sites, hs, a, hma, hs'⟩, hx⟩))
    (hsub (.inr ⟨t, ⟨sites, hs, b, hmb, ht'⟩, hy⟩)) (hfx.trans hfy.symm)
  subst hxy
  obtain ⟨sites', hes, rfl⟩ := Site.expand_bare_eq_ok_iff.mp he
  obtain ⟨below', he', hb⟩ := ha.items sites hs a hma b hmb hne s t x hs' ht' hx hy sites' hes
  refine ⟨below'.map Site.bare, Site.expand_bare_eq_ok_iff.mpr ⟨below', he', rfl⟩, ?_⟩
  rw [Site.map_fingerprint?, Site.map_fingerprint?, Site.map_shape?_bare, Site.map_shape?_bare, hb]

end SyntaxTree

namespace Graph

variable {tree tree' : SyntaxTree} {g g' : Graph Fingerprint}

theorem exists_covers {sites : List Site} (hs : Site.ofFile tree.root = .ok sites)
    (h : ofFile tree = .ok g)
    (hagree : ∀ a ∈ sites.map Site.bare, ∀ b ∈ sites.map Site.bare, a = b ∨ a.Agree b)
    (hr : ∀ a ∈ sites.map Site.bare, ∀ t, a.Meets t →
      t.fingerprint? ≠ some tree.root.fingerprint) :
    ∃ all, all.Perm (sites.map Site.bare) ∧ Covers tree.root.fingerprint all g := by
  obtain ⟨sites', hs', hv⟩ := ofFile_eq_ok_iff_visits.mp h
  rw [hs] at hs'
  cases hs'
  exact (Covers.start _ _).run hv.bare (fun a ha b hb => hagree b hb a ha) hr

theorem perm_sites {sites sites' : List Site}
    (hp : (tree.root.items.map Node.bare).Perm (tree'.root.items.map Node.bare))
    (hs : Site.ofFile tree.root = .ok sites) (hs' : Site.ofFile tree'.root = .ok sites') :
    (sites.map Site.bare).Perm (sites'.map Site.bare) := by
  have bared : ∀ {root : Node} {sites : List Site}, Site.ofFile root = .ok sites →
      (root.items.map Node.bare).mapM Site.ofItem = .ok (sites.map Site.bare) := by
    intro root sites h
    rw [Site.mapM_ofItem_bare, Site.ofFile_eq_ok_iff.mp h]
    rfl
  exact Site.mapM_ofItem_perm hp (bared hs) (bared hs')

/-- Two files with the same items in some order have graphs with the same number of
components. They have the same counts and the same complexity if no two of their
shapes share a fingerprint and both read their shapes alike. -/
theorem counts_eq_of_perm_items
    (hp : (tree.root.items.map Node.bare).Perm (tree'.root.items.map Node.bare))
    (h : ofFile tree = .ok g) (h' : ofFile tree' = .ok g') :
    g.components = g'.components ∧
    (Set.InjOn Shape.fingerprint (tree.shapes ∪ tree'.shapes) →
      tree.ReadAlike → tree'.ReadAlike →
      g.nodeCount = g'.nodeCount ∧ g.edgeCount = g'.edgeCount ∧ g.complexity = g'.complexity) := by
  have hlen : tree.root.items.length = tree'.root.items.length := by
    simpa using hp.length_eq
  have hcomp : g.components = g'.components := by
    rw [(counts_ofFile h).1, (counts_ofFile h').1, hlen]
  refine ⟨hcomp, fun hi ha ha' => ?_⟩
  obtain ⟨sites, hs, _⟩ := ofFile_eq_ok_iff_visits.mp h
  obtain ⟨sites', hs', _⟩ := ofFile_eq_ok_iff_visits.mp h'
  have hps := perm_sites hp hs hs'
  have hsub : tree.shapes ⊆ tree.shapes ∪ tree'.shapes := Set.subset_union_left
  have hsub' : tree'.shapes ⊆ tree.shapes ∪ tree'.shapes := Set.subset_union_right
  have hagree := ha.agree hi hsub hs
  have hr := SyntaxTree.fingerprint?_ne hi hsub (hsub (.inl rfl)) hs ha.shape?_ne
  have hr' := SyntaxTree.fingerprint?_ne hi hsub' (hsub' (.inl rfl)) hs' ha'.shape?_ne
  rw [Node.fingerprint_shape] at hr hr'
  obtain ⟨all, hall, hc⟩ := exists_covers hs h hagree hr
  obtain ⟨all', hall', hc'⟩ := exists_covers hs' h' (ha'.agree hi hsub' hs') hr'
  have hroots : ∀ a ∈ all, ∀ t, a.Meets t → t.fingerprint? ≠ some tree.root.fingerprint ∧
      t.fingerprint? ≠ some tree'.root.fingerprint := by
    intro a hma t ht
    have hm := hall.mem_iff.mp hma
    exact ⟨hr a hm t ht, hr' a (hps.mem_iff.mp hm) t ht⟩
  obtain ⟨hn, he⟩ := hc.counts_eq hc' (hall.trans (hps.trans hall'.symm))
    (fun a hma b hmb => hagree a (hall.mem_iff.mp hma) b (hall.mem_iff.mp hmb)) hroots
  refine ⟨hn, he, ?_⟩
  rw [complexity, complexity, hn, he, hcomp]

/-- `fn name() { statement }` -/
def functionOf (i : Nat) (name text : String) (statement : Node) : Node :=
  .phrase i "function_item" "" ("fn " ++ name ++ "() \x7b " ++ text ++ " \x7d")
    [.token (i + 1) "fn", .phrase (i + 2) "identifier" "name" name [],
      .phrase (i + 3) "parameters" "parameters" "()" [.token (i + 4) "(", .token (i + 5) ")"],
      .phrase (i + 6) "block" "body" ("\x7b " ++ text ++ " \x7d")
        [.token (i + 7) "\x7b", statement, .token (i + 8) "\x7d"]]

/-- `fn name() { x }` -/
def reading (i : Nat) (name : String) : Node :=
  functionOf i name "x" (.phrase (i + 9) "identifier" "" "x" [])

def twoReading (first second : String) : SyntaxTree where
  root := .phrase 0 "source_file" "" "" [reading 1 first, reading 11 second]
  distinct := by
    change [0, 1, 2, 3, 4, 5, 6, 7, 8, 10, 9, 11, 12, 13, 14, 15, 16, 17, 18, 20, 19].Nodup
    decide

def readingLines : List ShapeLine :=
  [⟨"fn", "fn", [], 0xf6406661c83124ed⟩, ⟨"identifier", "f", [], 0x15f26e00e879a434⟩,
    ⟨"identifier", "g", [], 0x6d66131d9198b054⟩, ⟨"(", "(", [], 0xc029db2a0e7b45e8⟩,
    ⟨")", ")", [], 0x25e57f8d8b208bf1⟩, ⟨"\x7b", "\x7b", [], 0x0c4ef11360afa009⟩,
    ⟨"\x7d", "\x7d", [], 0x10bf0e5b0c975690⟩, ⟨"identifier", "x", [], 0x1d13aae1efc7e709⟩,
    ⟨"parameters", "", [3, 4], 0x1beb2d5449ee8872⟩, ⟨"block", "", [5, 7, 6], 0x607aa792f581e587⟩,
    ⟨"function_item", "", [0, 1, 8, 9], 0xe848a0ed67a6223a⟩,
    ⟨"function_item", "", [0, 2, 8, 9], 0x3e090b2e5d24daed⟩,
    ⟨"source_file", "", [10, 11], 0x741862a77a6c3c34⟩,
    ⟨"source_file", "", [11, 10], 0xa5d51ac9470787de⟩]

theorem readingLines_correct : ShapeLine.allCorrect [] readingLines = true := by
  decide +kernel

/-- Where the places of such a function lead, by the kind of node alone. -/
def readingOnward : String → List (Option Shape)
  | "function_item" => [some (Node.phrase 0 "block" "body" ""
      [.token 0 "\x7b", .phrase 0 "identifier" "" "x" [], .token 0 "\x7d"]).shape]
  | "block" => [some (Node.phrase 0 "identifier" "" "x" []).shape]
  | _ => []

theorem meets_reading {i : Nat} {name : String} {s : Site}
    (h : (Site.item (reading i name)).Meets s) :
    ∃ n ∈ (reading i name).preorder, s.shape? = some n.shape ∧ n.kind ≠ "source_file" ∧
      ∃ below, s.expand = .ok below ∧ below.map Site.shape? = readingOnward n.kind := by
  rcases (Site.meets_iff rfl).mp h with rfl | ⟨b, hb, h⟩
  · have hk : "function_item" ≠ "source_file" := by decide
    exact ⟨reading i name, Node.mem_preorder_self _, rfl, hk, _, rfl, rfl⟩
  cases List.mem_singleton.mp hb
  rcases (Site.meets_iff rfl).mp h with rfl | ⟨x, hx, h⟩
  · have hk : "block" ≠ "source_file" := by decide
    exact ⟨_, List.mem_of_getElem? (i := 6) rfl, rfl, hk, _, rfl, rfl⟩
  cases List.mem_singleton.mp hx
  rcases (Site.meets_iff rfl).mp h with rfl | ⟨y, hy, _⟩
  · have hk : "identifier" ≠ "source_file" := by decide
    exact ⟨_, List.mem_of_getElem? (i := 8) rfl, rfl, hk, _, rfl, rfl⟩
  · cases hy

theorem meets_twoReading {first second : String} {s : Site}
    (h : (twoReading first second).Meets s) :
    ∃ n ∈ (twoReading first second).root.preorder, s.shape? = some n.shape ∧
      n.kind ≠ "source_file" ∧
      ∃ below, s.expand = .ok below ∧ below.map Site.shape? = readingOnward n.kind := by
  obtain ⟨sites, hs, a, ha, h⟩ := h
  have hs' : Site.ofFile (twoReading first second).root =
      .ok [.item (reading 1 first), .item (reading 11 second)] := rfl
  rw [hs'] at hs
  cases hs
  have inside : ∀ c n : Node, c ∈ [reading 1 first, reading 11 second] → n ∈ c.preorder →
      n ∈ (twoReading first second).root.preorder := by
    intro c n hc hn
    change n ∈ (Node.node _ [reading 1 first, reading 11 second]).preorder
    rw [Node.preorder_node]
    exact List.mem_cons_of_mem _ (List.mem_flatMap.mpr ⟨c, hc, hn⟩)
  rcases List.mem_pair.mp ha with rfl | rfl
  · obtain ⟨n, hn, hrest⟩ := meets_reading h
    exact ⟨n, inside _ n (List.mem_pair.mpr (.inl rfl)) hn, hrest⟩
  · obtain ⟨n, hn, hrest⟩ := meets_reading h
    exact ⟨n, inside _ n (List.mem_pair.mpr (.inr rfl)) hn, hrest⟩

theorem extrasLoose_twoReading (first second : String) :
    (twoReading first second).ExtrasLoose := by
  have hall : (twoReading first second).root.preorder.all (fun n => !n.label.extra) = true := rfl
  intro n hn hx
  have hfalse := List.all_eq_true.mp hall n hn
  simp [hx] at hfalse

theorem readAlike_twoReading (first second : String) : (twoReading first second).ReadAlike := by
  refine ⟨?_, .inl (extrasLoose_twoReading first second)⟩
  intro sites hs a ha b hb _ s t x hms hmt hxs hxt below he
  obtain ⟨n, _, hn, _, below₁, he₁, hb₁⟩ := meets_twoReading ⟨sites, hs, a, ha, hms⟩
  obtain ⟨m, _, hm, _, below₂, he₂, hb₂⟩ := meets_twoReading ⟨sites, hs, b, hb, hmt⟩
  have hnm : n.shape = m.shape :=
    Option.some.inj (hn.symm.trans (hxs.trans (hxt.symm.trans hm)))
  rw [he] at he₁
  cases he₁
  refine ⟨below₂, he₂, ?_⟩
  rw [hb₂, hb₁, ← Node.kind_shape n, ← Node.kind_shape m, hnm]

theorem shapes_twoReading (first second : String) : (twoReading first second).shapes ⊆
    {x | ∃ n ∈ (twoReading first second).root.preorder, n.shape = x} := by
  rintro x (rfl | ⟨s, hs, hx⟩)
  · exact ⟨_, Node.mem_preorder_self _, rfl⟩
  · obtain ⟨n, hn, hnx, _⟩ := meets_twoReading hs
    exact ⟨n, hn, Option.some.inj (hnx.symm.trans hx)⟩

theorem exists_ofFile_twoReading : ∃ g g', ofFile (twoReading "f" "g") = .ok g ∧
    ofFile (twoReading "g" "f") = .ok g' := by
  have hfile : (twoReading "f" "g").root.fingerprint = ⟨0x741862a77a6c3c34⟩ :=
    Node.fingerprint_of_line (i := 12) readingLines_correct rfl rfl
  have hfile' : (twoReading "g" "f").root.fingerprint = ⟨0xa5d51ac9470787de⟩ :=
    Node.fingerprint_of_line (i := 13) readingLines_correct rfl rfl
  have hf : ∀ i, (reading i "f").fingerprint = ⟨0xe848a0ed67a6223a⟩ :=
    fun _ => Node.fingerprint_of_line (i := 10) readingLines_correct rfl rfl
  have hg : ∀ i, (reading i "g").fingerprint = ⟨0x3e090b2e5d24daed⟩ :=
    fun _ => Node.fingerprint_of_line (i := 11) readingLines_correct rfl rfl
  have hblock : ∀ i j k l field text, (Node.phrase i "block" field text
      [.token j "\x7b", .phrase k "identifier" "" "x" [], .token l "\x7d"]).fingerprint =
      ⟨0x607aa792f581e587⟩ :=
    fun _ _ _ _ _ _ => Node.fingerprint_of_line (i := 9) readingLines_correct rfl rfl
  have hx : ∀ i, (Node.phrase i "identifier" "" "x" []).fingerprint = ⟨0x1d13aae1efc7e709⟩ :=
    fun _ => Node.fingerprint_of_line (i := 7) readingLines_correct rfl rfl
  have hs : ∀ first second, Site.ofFile (twoReading first second).root =
      .ok [.item (reading 1 first), .item (reading 11 second)] := fun _ _ => rfl
  -- the block is entered under the first function and found under the second
  have hfg := ofFile_of_visits hfile (hs _ _)
    (.entered (congrArg some (hf 1)) (by decide) rfl
      (.entered (congrArg some (hblock _ _ _ _ _ _)) (by decide) rfl
        (.entered (congrArg some (hx _)) (by decide) rfl .nil .nil) .nil)
      (.entered (congrArg some (hg 11)) (by decide) rfl
        (.seen (congrArg some (hblock _ _ _ _ _ _)) (by decide) .nil) .nil))
  have hgf := ofFile_of_visits hfile' (hs _ _)
    (.entered (congrArg some (hg 1)) (by decide) rfl
      (.entered (congrArg some (hblock _ _ _ _ _ _)) (by decide) rfl
        (.entered (congrArg some (hx _)) (by decide) rfl .nil .nil) .nil)
      (.entered (congrArg some (hf 11)) (by decide) rfl
        (.seen (congrArg some (hblock _ _ _ _ _ _)) (by decide) .nil) .nil))
  exact ⟨_, _, hfg, hgf⟩

/-- Two functions with one body, in either order. -/
theorem counts_eq_of_swapped_functions :
    Set.InjOn Shape.fingerprint ((twoReading "f" "g").shapes ∪ (twoReading "g" "f").shapes) ∧
    (twoReading "f" "g").ReadAlike ∧ (twoReading "g" "f").ReadAlike ∧
    ∃ g g', ofFile (twoReading "f" "g") = .ok g ∧ ofFile (twoReading "g" "f") = .ok g' ∧
      g.components = g'.components ∧ g.nodeCount = g'.nodeCount ∧ g.edgeCount = g'.edgeCount ∧
      g.complexity = g'.complexity := by
  have hi : Set.InjOn Shape.fingerprint
      ((twoReading "f" "g").shapes ∪ (twoReading "g" "f").shapes) := by
    have hall : Set.InjOn Shape.fingerprint {x | ∃ n ∈ (twoReading "f" "g").root.preorder ++
        (twoReading "g" "f").root.preorder, n.shape = x} :=
      Node.injOn_shapes [12, 10, 0, 1, 8, 3, 4, 9, 5, 7, 6, 11, 0, 2, 8, 3, 4, 9, 5, 7, 6,
        13, 11, 0, 2, 8, 3, 4, 9, 5, 7, 6, 10, 0, 1, 8, 3, 4, 9, 5, 7, 6]
        readingLines_correct (by decide) rfl
    refine hall.mono (Set.union_subset ?_ ?_)
    · intro x hx
      obtain ⟨n, hn, hnx⟩ := shapes_twoReading "f" "g" hx
      exact ⟨n, List.mem_append_left _ hn, hnx⟩
    · intro x hx
      obtain ⟨n, hn, hnx⟩ := shapes_twoReading "g" "f" hx
      exact ⟨n, List.mem_append_right _ hn, hnx⟩
  have ha := readAlike_twoReading "f" "g"
  have ha' := readAlike_twoReading "g" "f"
  have hp : ((twoReading "f" "g").root.items.map Node.bare).Perm
      ((twoReading "g" "f").root.items.map Node.bare) := List.Perm.swap _ _ []
  obtain ⟨g, g', hg, hg'⟩ := exists_ofFile_twoReading
  obtain ⟨hc, hrest⟩ := counts_eq_of_perm_items hp hg hg'
  exact ⟨hi, ha, ha', g, g', hg, hg', hc, hrest hi ha ha'⟩

/-- `extern crate x as x;` -/
def crateAlias (i : Nat) : Node :=
  .phrase i "extern_crate_declaration" "" "extern crate x as x;"
    [.token (i + 1) "extern", .phrase (i + 2) "crate" "" "crate" [],
      .phrase (i + 3) "identifier" "name" "x" [], .token (i + 4) "as",
      .phrase (i + 5) "identifier" "alias" "x" [], .token (i + 6) ";"]

/-- The declaration as a statement, where it is not entered. -/
def enclosing (i : Nat) : Node := functionOf i "f" "extern crate x as x;" (crateAlias (i + 9))

def enclosingFirst : SyntaxTree where
  root := .phrase 0 "source_file" "" "" [enclosing 1, crateAlias 17]
  distinct := by decide +kernel

def enclosedFirst : SyntaxTree where
  root := .phrase 0 "source_file" "" "" [crateAlias 1, enclosing 8]
  distinct := by decide +kernel

def enclosingLines : List ShapeLine :=
  [⟨"fn", "fn", [], 0xf6406661c83124ed⟩, ⟨"identifier", "f", [], 0x15f26e00e879a434⟩,
    ⟨"(", "(", [], 0xc029db2a0e7b45e8⟩, ⟨")", ")", [], 0x25e57f8d8b208bf1⟩,
    ⟨"\x7b", "\x7b", [], 0x0c4ef11360afa009⟩, ⟨"\x7d", "\x7d", [], 0x10bf0e5b0c975690⟩,
    ⟨"extern", "extern", [], 0x1d885ba0f3e46434⟩, ⟨"crate", "crate", [], 0x410f9c7dd4c739e0⟩,
    ⟨"identifier", "x", [], 0x1d13aae1efc7e709⟩, ⟨"as", "as", [], 0xd5cae6dda640041c⟩,
    ⟨";", ";", [], 0x083a4c4b079a245c⟩, ⟨"parameters", "", [2, 3], 0x1beb2d5449ee8872⟩,
    ⟨"extern_crate_declaration", "", [6, 7, 8, 9, 8, 10], 0x669c371045bb8999⟩,
    ⟨"block", "", [4, 12, 5], 0x34693ad162333066⟩,
    ⟨"function_item", "", [0, 1, 11, 13], 0x14d09341332306d1⟩,
    ⟨"source_file", "", [14, 12], 0x7707a5abe0b382ee⟩,
    ⟨"source_file", "", [12, 14], 0x9208ec5e09624f86⟩]

/-- Two orders of the same items, in files made as the parser makes them that have no two
subtrees of different shape with one fingerprint. -/
structure Reordered (tree tree' : SyntaxTree) : Prop where
  perm : (tree.root.items.map Node.bare).Perm (tree'.root.items.map Node.bare)
  loose : tree.ExtrasLoose ∧ tree'.ExtrasLoose
  injOn : Set.InjOn Shape.fingerprint
    {x | ∃ n ∈ tree.root.preorder ++ tree'.root.preorder, n.shape = x}

theorem enclosingLines_correct : ShapeLine.allCorrect [] enclosingLines = true := by
  decide +kernel

theorem reordered_enclosing : Reordered enclosingFirst enclosedFirst := by
  refine ⟨List.Perm.swap _ _ [], by decide +kernel, ?_⟩
  exact Node.injOn_shapes
    [15, 14, 0, 1, 11, 2, 3, 13, 4, 12, 6, 7, 8, 9, 8, 10, 5, 12, 6, 7, 8, 9, 8, 10,
      16, 12, 6, 7, 8, 9, 8, 10, 14, 0, 1, 11, 2, 3, 13, 4, 12, 6, 7, 8, 9, 8, 10, 5]
    enclosingLines_correct (by decide) rfl

theorem counts_enclosing : ∃ g g', ofFile enclosingFirst = .ok g ∧ ofFile enclosedFirst = .ok g' ∧
    (g.nodeCount = 4 ∧ g.edgeCount = 4 ∧ g.complexity = 4) ∧
    (g'.nodeCount = 5 ∧ g'.edgeCount = 6 ∧ g'.complexity = 5) := by
  have hfile : enclosingFirst.root.fingerprint = ⟨0x7707a5abe0b382ee⟩ :=
    Node.fingerprint_of_line (i := 15) enclosingLines_correct rfl rfl
  have hfile' : enclosedFirst.root.fingerprint = ⟨0x9208ec5e09624f86⟩ :=
    Node.fingerprint_of_line (i := 16) enclosingLines_correct rfl rfl
  have hfn : ∀ i, (enclosing i).fingerprint = ⟨0x14d09341332306d1⟩ :=
    fun _ => Node.fingerprint_of_line (i := 14) enclosingLines_correct rfl rfl
  have hblock : ∀ i j k l field text, (Node.phrase i "block" field text
      [.token j "\x7b", crateAlias k, .token l "\x7d"]).fingerprint = ⟨0x34693ad162333066⟩ :=
    fun _ _ _ _ _ _ => Node.fingerprint_of_line (i := 13) enclosingLines_correct rfl rfl
  have hcrate : ∀ i, (crateAlias i).fingerprint = ⟨0x669c371045bb8999⟩ :=
    fun _ => Node.fingerprint_of_line (i := 12) enclosingLines_correct rfl rfl
  have hx : ∀ i field, (Node.phrase i "identifier" field "x" []).fingerprint =
      ⟨0x1d13aae1efc7e709⟩ :=
    fun _ _ => Node.fingerprint_of_line (i := 8) enclosingLines_correct rfl rfl
  have hs : Site.ofFile enclosingFirst.root = .ok [.item (enclosing 1), .item (crateAlias 17)] :=
    rfl
  have hs' : Site.ofFile enclosedFirst.root = .ok [.item (crateAlias 1), .item (enclosing 8)] :=
    rfl
  -- the declaration comes first as a statement, then as an item
  have hg := ofFile_of_visits hfile hs
    (.entered (congrArg some (hfn 1)) (by decide) rfl
      (.entered (congrArg some (hblock _ _ _ _ _ _)) (by decide) rfl
        (.entered (congrArg some (hcrate 10)) (by decide) rfl .nil .nil) .nil)
      (.seen (congrArg some (hcrate 17)) (by decide) .nil))
  have hg' := ofFile_of_visits hfile' hs'
    (.entered (congrArg some (hcrate 1)) (by decide) rfl
      (.entered (congrArg some (hx _ _)) (by decide) rfl .nil
        (.seen (congrArg some (hx _ _)) (by decide) .nil))
      (.entered (congrArg some (hfn 8)) (by decide) rfl
        (.entered (congrArg some (hblock _ _ _ _ _ _)) (by decide) rfl
          (.seen (congrArg some (hcrate 17)) (by decide) .nil) .nil) .nil))
  exact ⟨_, _, hg, hg', by decide, by decide⟩

/-- The order of the items can change the counts and the complexity: a declaration that is a
statement of a function too is entered in one order only. -/
theorem counts_depend_on_order : Reordered enclosingFirst enclosedFirst ∧
    ∃ g g', ofFile enclosingFirst = .ok g ∧ ofFile enclosedFirst = .ok g' ∧
      (g.nodeCount = 4 ∧ g.edgeCount = 4 ∧ g.complexity = 4) ∧
      (g'.nodeCount = 5 ∧ g'.edgeCount = 6 ∧ g'.complexity = 5) :=
  ⟨reordered_enclosing, counts_enclosing⟩

end Graph

end RustMetrics
