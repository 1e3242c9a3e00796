import RustMetrics.Proofs.Graph.Order

/-! What is skipped is not lost. The walk enters a vertex once, at the place where it
is met first, and skips all that is below the other places. If places that share a
vertex lead to the same vertices, the graph is that of a walk which skips nothing:
each vertex was entered somewhere and its edges are complete, so the registered
vertices are closed under leading on, and whatever lies below a skipped place is
among them. -/

namespace RustMetrics

/-- What the walk of a file meets: the file itself, then places. -/
inductive Occurrence where
  | file (root : Node)
  | place (s : Site)

namespace Occurrence

def fingerprint? : Occurrence → Option Fingerprint
  | file root => some root.fingerprint
  | place s => s.fingerprint?

/-- Where an occurrence leads; a file leads to its items. -/
def expand : Occurrence → Except Failure (List Site)
  | file root => Site.ofFile root
  | place s => s.expand

/-- To how many places an occurrence leads. -/
def width (o : Occurrence) : Nat :=
  match o.expand with
  | .error _ => 0
  | .ok sites => sites.length

end Occurrence

namespace SyntaxTree

/-- The occurrences met from a file on if every one is entered. -/
inductive Occurs (tree : SyntaxTree) : Occurrence → Prop
  | file : Occurs tree (.file tree.root)
  | led {o sites s} : Occurs tree o → o.expand = .ok sites → s ∈ sites → Occurs tree (.place s)

/-- Occurrences that share a vertex lead to the same vertices, in the same order. -/
def LeadsAlike (tree : SyntaxTree) : Prop :=
  ∀ o o' f, tree.Occurs o → tree.Occurs o' → o.fingerprint? = some f → o'.fingerprint? = some f →
    ∀ sites, o.expand = .ok sites →
      ∃ sites', o'.expand = .ok sites' ∧
        sites'.map Site.fingerprint? = sites.map Site.fingerprint?

variable {tree : SyntaxTree} {o : Occurrence}

theorem occurs_iff : tree.Occurs o ↔ o = .file tree.root ∨ ∃ s, o = .place s ∧ tree.Meets s := by
  constructor
  · intro h
    induction h with
    | file => exact .inl rfl
    | @led o sites s _ he hs ih =>
      refine .inr ⟨s, rfl, ?_⟩
      rcases ih with rfl | ⟨t, rfl, items, hi, a, ha, hat⟩
      · exact ⟨sites, he, s, hs, .refl⟩
      · exact ⟨items, hi, a, ha, hat.tail ⟨sites, he, hs⟩⟩
  · rintro (rfl | ⟨s, rfl, items, hi, a, ha, has⟩)
    · exact .file
    · induction has with
      | refl => exact .led .file hi ha
      | tail _ hstep ih =>
        obtain ⟨sites, he, hs⟩ := hstep
        exact .led ih he hs

end SyntaxTree

theorem Site.map_fingerprint?_eq_map_some {sites : List Site}
    (h : ∀ s ∈ sites, ∃ f, s.fingerprint? = some f) :
    sites.map fingerprint? = (sites.filterMap fingerprint?).map some := by
  induction sites with
  | nil => rfl
  | cons s rest ih =>
    obtain ⟨f, hf⟩ := h s List.mem_cons_self
    rw [List.filterMap_cons_some hf, List.map_cons, List.map_cons, hf,
      ih fun t ht => h t (List.mem_cons_of_mem _ ht)]

namespace Graph

variable {tree : SyntaxTree} {g : Graph Fingerprint} {v : Fingerprint} {o : Occurrence}

theorem mem_start {r v : Fingerprint} {n : Int} :
    v ∈ ((empty.setRoot r).setComponents n).vertices ↔ v = r := mem_empty_setRoot

theorem outs_start (r v : Fingerprint) (n : Int) :
    ((empty.setRoot r).setComponents n).outs v = [] := outs_empty_setRoot r v

/-- Every vertex was entered at some occurrence. Its edges lead to what that occurrence
leads to, in order, and all of it is registered. -/
theorem exists_entered (h : ofFile tree = .ok g) (hv : v ∈ g.vertices) :
    ∃ o sites, tree.Occurs o ∧ o.fingerprint? = some v ∧ o.expand = .ok sites ∧
      g.outs v = sites.filterMap Site.fingerprint? ∧
      ∀ s ∈ sites, ∃ f, s.fingerprint? = some f ∧ f ∈ g.vertices := by
  obtain ⟨items, hi, hvisits⟩ := ofFile_eq_ok_iff_visits.mp h
  by_cases hr : tree.root.fingerprint = v
  · subst hr
    refine ⟨.file tree.root, items, .file, rfl, hi, ?_, hvisits.registered⟩
    rw [hvisits.outs_of_mem (mem_start.mpr rfl), if_pos rfl, outs_start, List.nil_append]
  · obtain ⟨a, ha, t, hat, hft, sites, he, ho, hreg⟩ :=
      hvisits.exists_meets hv (fun hm => hr (mem_start.mp hm).symm) hr
    rw [outs_start, List.nil_append] at ho
    have hocc : tree.Occurs (.place t) :=
      SyntaxTree.occurs_iff.mpr (.inr ⟨t, rfl, items, hi, a, ha, hat⟩)
    exact ⟨.place t, sites, hocc, hft, he, ho, hreg⟩

/-- Whatever a walk that skips nothing meets has its vertex in the graph, skipped or not. -/
theorem registered_of_occurs (h : ofFile tree = .ok g) (ha : tree.LeadsAlike)
    (ho : tree.Occurs o) : ∃ v, o.fingerprint? = some v ∧ v ∈ g.vertices := by
  induction ho with
  | file =>
    obtain ⟨items, _, hvisits⟩ := ofFile_eq_ok_iff_visits.mp h
    exact ⟨_, rfl, hvisits.mem (mem_start.mpr rfl)⟩
  | @led o sites s ho he hs ih =>
    -- the occurrence above need not be the one that was entered
    obtain ⟨v, hf, hv⟩ := ih
    obtain ⟨o', sites', ho', hf', he', _, hreg⟩ := exists_entered h hv
    obtain ⟨sites₁, he₁, hids⟩ := ha o o' v ho ho' hf hf' sites he
    rw [he'] at he₁
    cases he₁
    have hs' : s.fingerprint? ∈ sites'.map Site.fingerprint? := hids ▸ List.mem_map_of_mem hs
    obtain ⟨t, ht, hst⟩ := List.mem_map.mp hs'
    obtain ⟨f, hft, hm⟩ := hreg t ht
    exact ⟨f, hst.symm.trans hft, hm⟩

theorem map_fingerprint?_eq_outs (h : ofFile tree = .ok g) (ha : tree.LeadsAlike)
    (ho : tree.Occurs o) (hf : o.fingerprint? = some v) :
    ∃ sites, o.expand = .ok sites ∧ sites.map Site.fingerprint? = (g.outs v).map some := by
  obtain ⟨w, hw, hm⟩ := registered_of_occurs h ha ho
  rw [hf] at hw
  cases hw
  obtain ⟨o', sites', ho', hf', he', houts, hreg⟩ := exists_entered h hm
  obtain ⟨sites, he, hids⟩ := ha o' o v ho' ho hf' hf sites' he'
  refine ⟨sites, he, ?_⟩
  rw [hids, houts, Site.map_fingerprint?_eq_map_some]
  intro s hs
  obtain ⟨f, hfs, _⟩ := hreg s hs
  exact ⟨f, hfs⟩

/-- If occurrences that share a vertex lead to the same vertices, the vertices of a file's
graph are exactly those of all occurrences, and the edges that leave a vertex go, in
order, where each of its occurrences leads. So there are as many edges as one occurrence
of each vertex has places to lead to. -/
theorem gate_loses_nothing (h : ofFile tree = .ok g) (ha : tree.LeadsAlike) :
    (∀ v, v ∈ g.vertices ↔ ∃ o, tree.Occurs o ∧ o.fingerprint? = some v) ∧
    (∀ o, tree.Occurs o → ∃ v ∈ g.vertices, o.fingerprint? = some v ∧
      ∃ sites, o.expand = .ok sites ∧ sites.map Site.fingerprint? = (g.outs v).map some) ∧
    ∀ pick : Fingerprint → Occurrence,
      (∀ v ∈ g.vertices, tree.Occurs (pick v) ∧ (pick v).fingerprint? = some v) →
      g.edgeCount = ∑ v ∈ g.vertices.toFinset, (pick v).width := by
  refine ⟨fun v => ⟨fun hv => ?_, ?_⟩, fun o ho => ?_, fun pick hpick => ?_⟩
  · obtain ⟨o, _, ho, hf, _⟩ := exists_entered h hv
    exact ⟨o, ho, hf⟩
  · rintro ⟨o, ho, hf⟩
    obtain ⟨w, hw, hm⟩ := registered_of_occurs h ha ho
    rw [hf] at hw
    cases hw
    exact hm
  · obtain ⟨v, hf, hv⟩ := registered_of_occurs h ha ho
    exact ⟨v, hv, hf, map_fingerprint?_eq_outs h ha ho hf⟩
  · obtain ⟨items, _, hvisits⟩ := ofFile_eq_ok_iff_visits.mp h
    have hrest : ∀ v, v ∉ g.vertices.toFinset → g.outs v = [] := by
      intro v hv
      have hn : v ∉ g.vertices := fun hm => hv (List.mem_toFinset.mpr hm)
      have hr : tree.root.fingerprint ≠ v := fun he =>
        hn (he ▸ hvisits.mem (mem_start.mpr rfl))
      rw [hvisits.outs_of_notMem hn hr, outs_start]
    rw [edgeCount_eq_sum hrest]
    refine Finset.sum_congr rfl fun v hv => ?_
    obtain ⟨ho, hf⟩ := hpick v (List.mem_toFinset.mp hv)
    obtain ⟨sites, he, hids⟩ := map_fingerprint?_eq_outs h ha ho hf
    have hlen := congrArg List.length hids
    rw [List.length_map, List.length_map] at hlen
    rw [Occurrence.width, he, ← hlen]

/-- Where the file of two such functions and its places lead, by the kind of node alone. -/
def twoReadingOnward (first second : String) : String → List (Option Shape)
  | "source_file" => [some (reading 0 first).shape, some (reading 0 second).shape]
  | kind => readingOnward kind

theorem occurs_twoReading {first second : String} (h : (twoReading first second).Occurs o) :
    ∃ n ∈ (twoReading first second).root.preorder, o.fingerprint? = some n.fingerprint ∧
      ∃ sites, o.expand = .ok sites ∧
        sites.map Site.shape? = twoReadingOnward first second n.kind := by
  rcases SyntaxTree.occurs_iff.mp h with rfl | ⟨s, rfl, hs⟩
  · exact ⟨_, Node.mem_preorder_self _, rfl, _, rfl, rfl⟩
  · obtain ⟨n, hn, hx, hk, sites, he, hsites⟩ := meets_twoReading hs
    refine ⟨n, hn, ?_, sites, he, ?_⟩
    · show s.fingerprint? = _
      rw [Site.fingerprint?_eq, hx, Option.map_some, Node.fingerprint_shape]
    · rw [hsites, twoReadingOnward]
      exact hk

theorem leadsAlike_twoReading : (twoReading "f" "g").LeadsAlike := by
  have hi : Set.InjOn Shape.fingerprint
      {x | ∃ n ∈ (twoReading "f" "g").root.preorder, n.shape = x} :=
    Node.injOn_shapes [12, 10, 0, 1, 8, 3, 4, 9, 5, 7, 6, 11, 0, 2, 8, 3, 4, 9, 5, 7, 6]
      readingLines_correct (by decide) rfl
  intro o o' f ho ho' hf hf' sites he
  obtain ⟨n, hn, hfn, sites₁, he₁, hs₁⟩ := occurs_twoReading ho
  obtain ⟨m, hm, hfm, sites₂, he₂, hs₂⟩ := occurs_twoReading ho'
  rw [he] at he₁
  cases he₁
  have hnm : n.fingerprint = m.fingerprint :=
    Option.some.inj (hfn.symm.trans (hf.trans (hf'.symm.trans hfm)))
  rw [← Node.fingerprint_shape, ← Node.fingerprint_shape] at hnm
  have hshape : n.shape = m.shape := hi ⟨n, hn, rfl⟩ ⟨m, hm, rfl⟩ hnm
  refine ⟨sites₂, he₂, ?_⟩
  rw [Site.map_fingerprint?, Site.map_fingerprint?, hs₁, hs₂, ← Node.kind_shape n,
    ← Node.kind_shape m, hshape]

/-- Two functions with one body. The body of the second is skipped; all the same it has the
edge to `x` that entering it would have given. -/
theorem gate_loses_nothing_of_shared_body : (twoReading "f" "g").LeadsAlike ∧
    ∃ g, ofFile (twoReading "f" "g") = .ok g ∧
      (∀ v, v ∈ g.vertices ↔
        ∃ o, (twoReading "f" "g").Occurs o ∧ o.fingerprint? = some v) ∧
      ∃ body, (reading 11 "g").child? "body" = some body ∧
        (twoReading "f" "g").Occurs (.place (.expression body)) ∧
        g.outs body.fingerprint = [⟨0x1d13aae1efc7e709⟩] := by
  obtain ⟨g, _, hg, _⟩ := exists_ofFile_twoReading
  obtain ⟨hvertices, houts, _⟩ := gate_loses_nothing hg leadsAlike_twoReading
  refine ⟨leadsAlike_twoReading, g, hg, hvertices, _, rfl, ?_⟩
  have hitems : (Occurrence.file (twoReading "f" "g").root).expand =
      .ok [.item (reading 1 "f"), .item (reading 11 "g")] := rfl
  have hitem : (twoReading "f" "g").Occurs (.place (.item (reading 11 "g"))) :=
    .led .file hitems (List.mem_pair.mpr (.inr rfl))
  have hbody := hitem.led rfl List.mem_cons_self
  refine ⟨hbody, ?_⟩
  obtain ⟨v, _, hf, sites, he, hids⟩ := houts _ hbody
  cases hf
  cases he
  have hx : (Node.phrase 20 "identifier" "" "x" []).fingerprint = ⟨0x1d13aae1efc7e709⟩ :=
    Node.fingerprint_of_line (i := 7) readingLines_correct rfl rfl
  have hids : [(Node.phrase 20 "identifier" "" "x" []).fingerprint].map some =
      (g.outs _).map some := hids
  rw [hx] at hids
  exact (List.map_injective_iff.mpr (Option.some_injective _) hids).symm

end Graph

end RustMetrics
