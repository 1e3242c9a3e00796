import RustMetrics.Import.Reading
import RustMetrics.Proofs.Fingerprint.Shape
import RustMetrics.Proofs.Text.Utf8

/-! What a `use` declaration imports, said on its syntax, and that reading it keeps
just that. The syntax nests a path to the left and holds the part before a name, a
list or a star in three different ways; the records nest to the right. -/

namespace RustMetrics

/-- What stands at the end of an import. -/
inductive Ending where
  | name
  | renamed (newName : String)
  | glob
  deriving DecidableEq, Repr

/-- One import: its segments from the outermost on, and its end. A glob has no
segment of its own. -/
structure Import where
  segments : List String
  ending : Ending
  deriving DecidableEq, Repr

/-- An import below further segments. -/
def Import.under (before : List String) (i : Import) : Import :=
  { i with segments := before ++ i.segments }

@[simp] theorem Import.map_under_nil (is : List Import) : is.map (Import.under []) = is :=
  List.map_id' is

theorem Import.map_under_cons (s : String) (ss : List String) (is : List Import) :
    is.map (Import.under (s :: ss)) = (is.map (Import.under ss)).map (Import.under [s]) := by
  rw [List.map_map]
  rfl

namespace Node

/-- A node is a word that can be a segment, written in UTF-8. -/
structure Spells (n : Node) (s : String) : Prop where
  kind : n.kind ∈ ["identifier", "self", "super", "crate"]
  text : n.text = Utf8.encode s

/-- The segments of a path, outermost first. -/
inductive IsPath : Node → List String → Prop
  | word {n : Node} {s : String} : n.Spells s → IsPath n [s]
  /-- A path that starts at the root of all crates, such as `::std`. -/
  | absolute {n last : Node} {s : String} : n.kind = "scoped_identifier" →
      n.child? "path" = none → n.child? "name" = some last → last.Spells s → IsPath n [s]
  | qualified {n before last : Node} {ss : List String} {s : String} :
      n.kind = "scoped_identifier" → n.child? "path" = some before → IsPath before ss →
      n.child? "name" = some last → last.Spells s → IsPath n (ss ++ [s])

/-- The segments of a path that may be left out. -/
inductive IsLead : Option Node → List String → Prop
  | absent : IsLead none []
  | path {n : Node} {ss : List String} : n.IsPath ss → IsLead (some n) ss

mutual

/-- What the syntax of a clause imports, in the order of the source. -/
inductive Denotes : Node → List Import → Prop
  | path {n : Node} {ss : List String} : n.IsPath ss → Denotes n [⟨ss, .name⟩]
  | renamed {n path newName : Node} {ss : List String} {s : String} :
      n.kind = "use_as_clause" → n.child? "path" = some path → path.IsPath ss →
      n.child? "alias" = some newName → newName.Spells s → Denotes n [⟨ss, .renamed s⟩]
  | glob {n : Node} {path : Option Node} {ss : List String} : n.kind = "use_wildcard" →
      n.phrases = path.toList → IsLead path ss → Denotes n [⟨ss, .glob⟩]
  | list {n : Node} {is : List Import} : n.kind = "use_list" → DenoteAll n.phrases is →
      Denotes n is
  | qualified {n list : Node} {ss : List String} {is : List Import} :
      n.kind = "scoped_use_list" → IsLead (n.child? "path") ss →
      n.child? "list" = some list → Denotes list is → Denotes n (is.map (Import.under ss))

/-- What several clauses import, one after the other. -/
inductive DenoteAll : List Node → List Import → Prop
  | nil : DenoteAll [] []
  | cons {n : Node} {ns : List Node} {is js : List Import} : Denotes n is → DenoteAll ns js →
      DenoteAll (n :: ns) (is ++ js)

end

/-- What a whole `use` declaration imports. -/
structure Declares (n : Node) (is : List Import) : Prop where
  kind : n.kind = "use_declaration"
  argument : ∃ clause, n.child? "argument" = some clause ∧ clause.Denotes is

end Node

namespace ImportTree

theorem size_lt_of_mem_branches {t b : ImportTree} (h : b ∈ t.branches) : b.size < t.size := by
  have hsizes := sizes_branches_lt t
  have hb := size_le_sizes_of_mem h
  omega

/-- The imports met by following branches. -/
def imports (t : ImportTree) : List Import :=
  match t.kind with
  | .path => (t.branches.attach.flatMap fun b => imports b.1).map (Import.under [t.name])
  | .group => t.branches.attach.flatMap fun b => imports b.1
  | .name => [⟨[t.name], .name⟩]
  | .rename => t.children[1]?.toList.map fun newName => ⟨[t.name], .renamed newName.name⟩
  | .glob => [⟨[], .glob⟩]
  | .segment => []
  | .other _ => []
termination_by t.size
decreasing_by
  all_goals exact size_lt_of_mem_branches b.2

@[simp] theorem imports_group (s : String) (cs : List ImportTree) :
    (node .group s cs).imports = cs.flatMap imports := by
  rw [imports]
  show cs.attach.flatMap (fun b => b.1.imports) = _
  rw [List.flatMap_subtype (fun _ _ => rfl), List.unattach_attach]

@[simp] theorem imports_name (s : String) (cs : List ImportTree) :
    (node .name s cs).imports = [⟨[s], .name⟩] := by
  rw [imports]
  rfl

@[simp] theorem imports_glob (s : String) (cs : List ImportTree) :
    (node .glob s cs).imports = [⟨[], .glob⟩] := by
  rw [imports]
  rfl

@[simp] theorem imports_rename (s newName : String) :
    (node .rename s [segment s, segment newName]).imports = [⟨[s], .renamed newName⟩] := by
  rw [imports]
  rfl

@[simp] theorem imports_step (s : String) (t : ImportTree) :
    (step s t).imports = t.imports.map (Import.under [s]) := by
  rw [step, imports]
  show ([t].attach.flatMap fun b => b.1.imports).map _ = _
  rw [List.flatMap_subtype (fun _ _ => rfl), List.unattach_attach, List.flatMap_singleton]
  rfl

theorem imports_under (ss : List String) (t : ImportTree) :
    (under ss t).imports = t.imports.map (Import.under ss) := by
  induction ss with
  | nil => rw [Import.map_under_nil]; rfl
  | cons s ss ih =>
    show (step s (under ss t)).imports = _
    rw [imports_step, ih, Import.map_under_cons s ss]

mutual

/-- A record and all records below it. -/
def records : ImportTree → List ImportTree
  | node k s cs => node k s cs :: recordsOf cs

def recordsOf : List ImportTree → List ImportTree
  | [] => []
  | c :: cs => records c ++ recordsOf cs

end

/-- The shape of one record: what it holds, by its kind. -/
structure Regular (t : ImportTree) : Prop where
  path : t.kind = .path → ∃ rest, t.children = [segment t.name, rest]
  rename : t.kind = .rename → ∃ newName, t.children = [segment t.name, segment newName]
  branches : t.branches ≠ [] → t.kind = .path ∨ t.kind = .group

/-- Every record of a tree is regular. -/
def AllRegular (t : ImportTree) : Prop := ∀ r ∈ t.records, r.Regular

theorem mem_recordsOf {r : ImportTree} {cs : List ImportTree} :
    r ∈ recordsOf cs ↔ ∃ c ∈ cs, r ∈ c.records := by
  induction cs with
  | nil => simp [recordsOf]
  | cons c cs ih => simp [recordsOf, ih]

theorem allRegular_node {k : ImportKind} {s : String} {cs : List ImportTree}
    (ht : (node k s cs).Regular) (hcs : ∀ c ∈ cs, c.AllRegular) : (node k s cs).AllRegular := by
  intro r hr
  rw [records, List.mem_cons, mem_recordsOf] at hr
  obtain rfl | ⟨c, hc, hrc⟩ := hr
  · exact ht
  · exact hcs c hc r hrc

theorem allRegular_leaf {k : ImportKind} (s : String) (hk : k ∈ [.segment, .name, .glob]) :
    (node k s []).AllRegular := by
  refine allRegular_node ?_ (fun c hc => absurd hc List.not_mem_nil)
  obtain rfl | rfl | rfl : k = .segment ∨ k = .name ∨ k = .glob := by simpa using hk
  all_goals exact ⟨nofun, nofun, fun h => absurd rfl h⟩

theorem allRegular_segment (s : String) : (segment s).AllRegular :=
  allRegular_leaf s List.mem_cons_self

theorem allRegular_name (s : String) : (node .name s []).AllRegular :=
  allRegular_leaf s (by decide)

theorem allRegular_rename (s newName : String) :
    (node .rename s [segment s, segment newName]).AllRegular := by
  refine allRegular_node ⟨nofun, fun _ => ⟨newName, rfl⟩, fun h => absurd rfl h⟩ ?_
  intro c hc
  obtain rfl | rfl := List.mem_pair.mp hc
  · exact allRegular_segment s
  · exact allRegular_segment newName

theorem allRegular_group {cs : List ImportTree} (hcs : ∀ c ∈ cs, c.AllRegular) :
    (node .group "" cs).AllRegular :=
  allRegular_node ⟨nofun, nofun, fun _ => .inr rfl⟩ hcs

theorem AllRegular.step {t : ImportTree} (ht : t.AllRegular) (s : String) :
    (step s t).AllRegular := by
  refine allRegular_node ⟨fun _ => ⟨t, rfl⟩, nofun, fun _ => .inl rfl⟩ ?_
  intro c hc
  obtain rfl | rfl := List.mem_pair.mp hc
  · exact allRegular_segment s
  · exact ht

theorem AllRegular.under {t : ImportTree} (ht : t.AllRegular) (ss : List String) :
    (under ss t).AllRegular := by
  induction ss with
  | nil => exact ht
  | cons s ss ih => exact ih.step s

end ImportTree

open ImportTree

namespace Node

variable {n : Node} {s : String} {ss : List String} {is : List Import}

theorem Spells.decoded (h : n.Spells s) : decoded n.text = .ok s := by
  rw [h.text, decoded_encode]

theorem Spells.requiredText (h : n.Spells s) : requiredText (some n) = .ok s := h.decoded

theorem Spells.kind_ne (h : n.Spells s) : n.kind ≠ "scoped_identifier" := by
  intro hk
  have hmem := h.kind
  rw [hk] at hmem
  revert hmem
  decide

theorem IsPath.segmentsOf (h : n.IsPath ss) : segmentsOf n = .ok ss.reverse := by
  induction h with
  | word hs =>
    rw [segmentsOf_eq, if_neg hs.kind_ne, hs.decoded]
    rfl
  | absolute hk hp hn hs =>
    rw [segmentsOf_eq, if_pos hk, hn, hs.requiredText, hp]
    rfl
  | qualified hk hp _ hn hs ih =>
    rw [segmentsOf_eq, if_pos hk, hn, hs.requiredText, hp, List.reverse_concat]
    show (ImportTree.segmentsOf _ >>= _) = _
    rw [ih]
    rfl

theorem IsLead.segments {path : Option Node} (h : IsLead path ss) : segments path = .ok ss := by
  cases h with
  | absent => rfl
  | path hp =>
    rw [ImportTree.segments, hp.segmentsOf]
    exact congrArg Except.ok (List.reverse_reverse ss)

theorem IsLead.withPath {path : Option Node} (h : IsLead path ss) (rest : ImportTree) :
    withPath path rest = .ok (under ss rest) := by
  rw [ImportTree.withPath, h.segments]
  rfl

/-- A clause is read as a tree with some imports, regular throughout. -/
def ReadsAs (n : Node) (is : List Import) : Prop :=
  ∃ t, read n = .ok t ∧ t.imports = is ∧ t.AllRegular

theorem readsAs_under {t : ImportTree} (hr : read n = .ok (under ss t)) (ht : t.AllRegular) :
    n.ReadsAs (t.imports.map (Import.under ss)) :=
  ⟨_, hr, imports_under ss t, ht.under ss⟩

theorem Spells.read (h : n.Spells s) : read n = .ok (.node .name s []) := by
  have hd := h.decoded
  have hk : n.kind = "identifier" ∨ n.kind = "self" ∨ n.kind = "super" ∨ n.kind = "crate" := by
    simpa using h.kind
  rw [read_eq]
  obtain hk | hk | hk | hk := hk
  all_goals
    simp only [hk, hd]
    rfl

theorem readsAs_scopedName {last : Node} (hk : n.kind = "scoped_identifier")
    (hp : IsLead (n.child? "path") ss) (hn : n.child? "name" = some last) (hs : last.Spells s) :
    n.ReadsAs [⟨ss ++ [s], .name⟩] := by
  have hread : ImportTree.read n = .ok (under ss (.node .name s [])) := by
    rw [read_eq]
    simp only [hk, hn, hs.requiredText]
    exact hp.withPath _
  have h := readsAs_under hread (allRegular_name s)
  rwa [imports_name] at h

theorem IsPath.readsAs (h : n.IsPath ss) : n.ReadsAs [⟨ss, .name⟩] := by
  cases h with
  | word hs => exact ⟨_, hs.read, imports_name _ _, allRegular_name _⟩
  | absolute hk hp hn hs =>
    have hlead := IsLead.absent
    rw [← hp] at hlead
    exact readsAs_scopedName hk hlead hn hs
  | qualified hk hp hb hn hs =>
    have hlead := IsLead.path hb
    rw [← hp] at hlead
    exact readsAs_scopedName hk hlead hn hs

/-- A path has a last segment. -/
theorem IsPath.exists_last (h : n.IsPath ss) : ∃ before last, ss = before ++ [last] := by
  cases h with
  | word | absolute => exact ⟨[], _, rfl⟩
  | qualified => exact ⟨_, _, rfl⟩

theorem readsAs_renamed {path newName : Node} (hk : n.kind = "use_as_clause")
    (hp : n.child? "path" = some path) (hss : path.IsPath ss)
    (ha : n.child? "alias" = some newName) (hs : newName.Spells s) :
    n.ReadsAs [⟨ss, .renamed s⟩] := by
  obtain ⟨before, last, rfl⟩ := hss.exists_last
  have hsegments := (IsLead.path hss).segments
  have hread : ImportTree.read n =
      .ok (under before (.node .rename last [segment last, segment s])) := by
    rw [read_eq]
    simp only [hk, hp, ha, hs.requiredText, hsegments]
    show ImportTree.renamed (before ++ [last]) s = _
    rw [ImportTree.renamed, List.getLast?_concat, List.dropLast_concat]
  have h := readsAs_under hread (allRegular_rename last s)
  rwa [imports_rename] at h

theorem readsAs_glob {path : Option Node} (hk : n.kind = "use_wildcard")
    (hp : n.phrases = path.toList) (hss : IsLead path ss) : n.ReadsAs [⟨ss, .glob⟩] := by
  have hread : ImportTree.read n = .ok (under ss (.node .glob "*" [])) := by
    have hhead : n.phrases.head? = path := by rw [hp, Option.head?_toList]
    rw [read_eq]
    simp only [hk, hhead]
    exact hss.withPath _
  have h := readsAs_under hread (allRegular_leaf "*" (by decide))
  rwa [imports_glob, List.map_singleton, Import.under, List.append_nil] at h

theorem readsAs_scopedList {list : Node} (hk : n.kind = "scoped_use_list")
    (hss : IsLead (n.child? "path") ss) (hl : n.child? "list" = some list)
    (hlist : list.ReadsAs is) : n.ReadsAs (is.map (Import.under ss)) := by
  obtain ⟨t, hread, rfl, ht⟩ := hlist
  refine readsAs_under ?_ ht
  rw [read_eq]
  simp only [hk, hl, hread]
  exact hss.withPath t

/-- Several clauses are read as trees with some imports, regular throughout. -/
def ReadAllAs (ns : List Node) (is : List Import) : Prop :=
  ∃ ts, ns.mapM ImportTree.read = .ok ts ∧ ts.flatMap imports = is ∧ ∀ t ∈ ts, t.AllRegular

theorem readAllAs_cons {ns : List Node} {js : List Import} (hn : n.ReadsAs is)
    (hns : ReadAllAs ns js) : ReadAllAs (n :: ns) (is ++ js) := by
  obtain ⟨t, hread, rfl, ht⟩ := hn
  obtain ⟨ts, hreads, rfl, hts⟩ := hns
  refine ⟨t :: ts, ?_, List.flatMap_cons, List.forall_mem_cons.mpr ⟨ht, hts⟩⟩
  rw [List.mapM_cons, hread, hreads]
  rfl

theorem readsAs_list (hk : n.kind = "use_list") (his : ReadAllAs n.phrases is) :
    n.ReadsAs is := by
  obtain ⟨ts, hreads, rfl, hts⟩ := his
  refine ⟨.node .group "" ts, ?_, imports_group "" ts, allRegular_group hts⟩
  rw [read_eq]
  simp only [hk, hreads]
  rfl

mutual

theorem Denotes.readsAs : {n : Node} → {is : List Import} → n.Denotes is → n.ReadsAs is
  | _, _, .path hss => hss.readsAs
  | _, _, .renamed hk hp hss ha hs => readsAs_renamed hk hp hss ha hs
  | _, _, .glob hk hp hss => readsAs_glob hk hp hss
  | _, _, .list hk his => readsAs_list hk his.readAllAs
  | _, _, .qualified hk hss hl hlist => readsAs_scopedList hk hss hl hlist.readsAs

theorem DenoteAll.readAllAs :
    {ns : List Node} → {is : List Import} → DenoteAll ns is → ReadAllAs ns is
  | _, _, .nil => ⟨[], rfl, rfl, fun _ h => absurd h List.not_mem_nil⟩
  | _, _, .cons hn hns => readAllAs_cons hn.readsAs hns.readAllAs

end

theorem Declares.readsAs (h : n.Declares is) : n.ReadsAs is := by
  obtain ⟨clause, ha, hclause⟩ := h.argument
  obtain ⟨t, hread, ht⟩ := hclause.readsAs
  refine ⟨t, ?_, ht⟩
  rw [read_eq]
  simp only [h.kind, ha]
  exact hread

end Node

namespace ImportTree

/-- A declaration is read, and what branches lead to is what its syntax imports: each import
once, in order, with all its segments and its end. -/
theorem read_keeps_imports {n : Node} {is : List Import} (h : n.Declares is) :
    ∃ t, read n = .ok t ∧ t.imports = is ∧ ∀ r ∈ t.records, r.Regular :=
  h.readsAs

/-- `c::d as e`. -/
def renamedClause : Node :=
  .phrase 14 "use_as_clause" "" "c::d as e"
    [.phrase 15 "scoped_identifier" "path" "c::d"
      [.phrase 16 "identifier" "path" "c" [], .token 17 "::",
        .phrase 18 "identifier" "name" "d" []],
      .token 19 "as", .phrase 20 "identifier" "alias" "e" []]

/-- `f::*`. -/
def globClause : Node :=
  .phrase 22 "use_wildcard" "" "f::*"
    [.phrase 23 "identifier" "" "f" [], .token 24 "::", .token 25 "*"]

/-- `{g, h}`. -/
def innerList : Node :=
  .phrase 27 "use_list" "" "\x7bg, h\x7d"
    [.token 28 "\x7b", .phrase 29 "identifier" "" "g" [], .token 30 ",",
      .phrase 31 "identifier" "" "h" [], .token 32 "\x7d"]

/-- `{self, c::d as e, f::*, {g, h}}`. -/
def outerList : Node :=
  .phrase 10 "use_list" "list" "\x7bself, c::d as e, f::*, \x7bg, h\x7d\x7d"
    [.token 11 "\x7b", .phrase 12 "self" "" "self" [], .token 13 ",", renamedClause,
      .token 21 ",", globClause, .token 26 ",", innerList, .token 33 "\x7d"]

/-- `::a::größe`. -/
def rootedPath : Node :=
  .phrase 3 "scoped_identifier" "path" "::a::größe"
    [.phrase 4 "scoped_identifier" "path" "::a"
      [.token 5 "::", .phrase 6 "identifier" "name" "a" []],
      .token 7 "::", .phrase 8 "identifier" "name" "größe" []]

/-- `::a::größe::{self, c::d as e, f::*, {g, h}}`. -/
def scopedClause : Node :=
  .phrase 2 "scoped_use_list" "argument"
    "::a::größe::\x7bself, c::d as e, f::*, \x7bg, h\x7d\x7d"
    [rootedPath, .token 9 "::", outerList]

/-- `use ::a::größe::{self, c::d as e, f::*, {g, h}};`. -/
def nestedUse : Node :=
  .phrase 0 "use_declaration" "" "use ::a::größe::\x7bself, c::d as e, f::*, \x7bg, h\x7d\x7d;"
    [.token 1 "use", scopedClause, .token 34 ";"]

theorem spells_identifier (i : Nat) (field s : String) :
    (Node.phrase i "identifier" field s []).Spells s :=
  ⟨List.mem_cons_self, rfl⟩

theorem denotes_outerList : outerList.Denotes
    [⟨["self"], .name⟩, ⟨["c", "d"], .renamed "e"⟩, ⟨["f"], .glob⟩, ⟨["g"], .name⟩,
      ⟨["h"], .name⟩] := by
  have hself : (Node.phrase 12 "self" "" "self" []).Spells "self" := ⟨by decide, rfl⟩
  have hrenamed : renamedClause.Denotes [⟨["c", "d"], .renamed "e"⟩] :=
    .renamed rfl rfl
      (.qualified rfl rfl (.word (spells_identifier 16 "path" "c")) rfl
        (spells_identifier 18 "name" "d"))
      rfl (spells_identifier 20 "alias" "e")
  have hglob : globClause.Denotes [⟨["f"], .glob⟩] :=
    .glob rfl rfl (.path (.word (spells_identifier 23 "" "f")))
  have hinner : innerList.Denotes [⟨["g"], .name⟩, ⟨["h"], .name⟩] :=
    .list rfl (.cons (.path (.word (spells_identifier 29 "" "g")))
      (.cons (.path (.word (spells_identifier 31 "" "h"))) .nil))
  exact .list rfl
    (.cons (.path (.word hself)) (.cons hrenamed (.cons hglob (.cons hinner .nil))))

/-- What `nestedUse` imports. -/
def nestedImports : List Import :=
  [⟨["a", "größe", "self"], .name⟩, ⟨["a", "größe", "c", "d"], .renamed "e"⟩,
    ⟨["a", "größe", "f"], .glob⟩, ⟨["a", "größe", "g"], .name⟩, ⟨["a", "größe", "h"], .name⟩]

/-- Imports of all endings below a path from the root of all crates, two of them in a list
within the list. -/
theorem read_keeps_nested_imports : nestedUse.Declares nestedImports ∧
    ∃ t, read nestedUse = .ok t ∧ t.imports = nestedImports ∧ ∀ r ∈ t.records, r.Regular := by
  have hpath : rootedPath.IsPath ["a", "größe"] :=
    .qualified rfl rfl (.absolute rfl rfl rfl (spells_identifier 6 "name" "a")) rfl
      (spells_identifier 8 "name" "größe")
  have hlead : Node.IsLead (scopedClause.child? "path") ["a", "größe"] := .path hpath
  have hclause : scopedClause.Denotes nestedImports := .qualified rfl hlead rfl denotes_outerList
  have h : nestedUse.Declares nestedImports := ⟨rfl, scopedClause, rfl, hclause⟩
  exact ⟨h, read_keeps_imports h⟩

end ImportTree

end RustMetrics
