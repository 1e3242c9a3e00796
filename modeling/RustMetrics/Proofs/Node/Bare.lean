import RustMetrics.Graph.Site
import RustMetrics.Proofs.Fingerprint.Shape

/-! A node without its place: where it starts and the index that names it are
forgotten, all else is kept, at every depth. Moving an item within a file changes
places only, and nothing that the walk reads depends on them. -/

namespace RustMetrics

def Label.bare (l : Label) : Label := { l with start := ⟨0, 0⟩, index := 0 }

namespace Node

mutual

def bare : Node → Node
  | node l cs => node l.bare (bares cs)

def bares : List Node → List Node
  | [] => []
  | c :: cs => bare c :: bares cs

end

theorem bares_eq_map (cs : List Node) : bares cs = cs.map bare := by
  induction cs with
  | nil => rfl
  | cons c cs ih => rw [bares, ih, List.map_cons]

@[simp] theorem label_bare (n : Node) : n.bare.label = n.label.bare := by
  obtain ⟨l, cs⟩ := n
  rw [bare]
  rfl

@[simp] theorem children_bare (n : Node) : n.bare.children = n.children.map bare := by
  obtain ⟨l, cs⟩ := n
  rw [bare, bares_eq_map]
  rfl

@[simp] theorem kind_bare (n : Node) : n.bare.kind = n.kind := by
  rw [kind, label_bare]
  rfl

@[simp] theorem text_bare (n : Node) : n.bare.text = n.text := by
  rw [text, label_bare]
  rfl

@[simp] theorem itemKind_bare (n : Node) : n.bare.itemKind = n.itemKind := by
  rw [itemKind, kind_bare, itemKind]

@[simp] theorem phrases_bare (n : Node) : n.bare.phrases = n.phrases.map bare := by
  rw [phrases, children_bare, List.filter_map, phrases]
  refine congrArg (List.map bare) (List.filter_congr fun c _ => ?_)
  rw [Function.comp_apply, label_bare]
  rfl

@[simp] theorem child?_bare (n : Node) (field : String) :
    n.bare.child? field = (n.child? field).map bare := by
  have hfield : (fun c : Node => c.label.field == field) ∘ bare =
      fun c => c.label.field == field := by
    funext c
    rw [Function.comp_apply, label_bare]
    rfl
  rw [child?, heldAs, children_bare, List.find?_map, hfield, child?, heldAs]

theorem filter_kind_map_bare (p : String → Bool) (cs : List Node) :
    (cs.map bare).filter (fun c => p c.kind) = (cs.filter fun c => p c.kind).map bare := by
  rw [List.filter_map]
  refine congrArg (List.map bare) (List.filter_congr fun c _ => ?_)
  rw [Function.comp_apply, kind_bare]

@[simp] theorem items_bare (n : Node) : n.bare.items = n.items.map bare := by
  rw [items, phrases_bare, filter_kind_map_bare (fun k => !isAside k), items]

@[simp] theorem bodyItems_bare (n : Node) : n.bare.bodyItems = n.bodyItems.map bare := by
  rw [bodyItems, bodyItems, child?_bare]
  cases n.child? "body" with
  | none => rfl
  | some body => exact items_bare body

@[simp] theorem methods_bare (n : Node) : n.bare.methods = n.methods.map bare := by
  rw [methods, bodyItems_bare, filter_kind_map_bare (· == "function_item"), methods]

theorem head?_phrases_bare (n : Node) : n.bare.phrases.head? = n.phrases.head?.map bare := by
  rw [phrases_bare, List.head?_map]

@[simp] theorem statements_bare (n : Node) : n.bare.statements = n.statements.map bare := by
  rw [statements, phrases_bare, List.filterMap_map, statements, List.map_filterMap]
  congr 1
  funext c
  simp only [Function.comp_apply, kind_bare]
  split
  · rfl
  · split
    · exact head?_phrases_bare c
    · rfl

@[simp] theorem elseTarget?_bare (n : Node) : n.bare.elseTarget? = n.elseTarget?.map bare := by
  rw [elseTarget?, child?_bare, elseTarget?]
  cases n.child? "alternative" with
  | none => rfl
  | some a => exact head?_phrases_bare a

@[simp] theorem sides_bare (n : Node) : n.bare.sides = n.sides.map bare := by
  simp only [sides, child?_bare, List.map_append]
  cases n.child? "left" <;> cases n.child? "right" <;> rfl

@[simp] theorem branches_bare (n : Node) : n.bare.branches = n.branches.map bare := by
  simp only [branches, child?_bare, elseTarget?_bare, List.map_append]
  cases n.child? "consequence" <;> cases n.elseTarget? <;> rfl

@[simp] theorem parts_bare (n : Node) : n.bare.parts = n.parts.map bare := by
  have filtered : ∀ p : String → Bool, n.bare.phrases.filter (fun c => p c.kind) =
      (n.phrases.filter fun c => p c.kind).map bare := by
    intro p
    rw [phrases_bare, filter_kind_map_bare p]
  unfold parts
  rw [kind_bare]
  split
  · exact filtered (· != "attribute_item")
  · exact sides_bare n
  · exact sides_bare n
  · exact statements_bare n
  · exact filtered (· != "label")
  · rw [child?_bare, branches_bare, List.map_append]
    cases n.child? "condition" <;> rfl
  · rfl

mutual

theorem shape_bare : (n : Node) → n.bare.shape = n.shape
  | node l cs => by
    rw [bare, shape, shapes_bares cs, shape]
    rfl

theorem shapes_bares : (cs : List Node) → shapes (bares cs) = shapes cs
  | [] => rfl
  | c :: cs => by
    have hx : c.bare.label.extra = c.label.extra := by
      rw [label_bare]
      rfl
    rw [bares, shapes, shapes, hx, shape_bare c, shapes_bares cs]

end

theorem fingerprint_bare (n : Node) : n.bare.fingerprint = n.fingerprint := by
  rw [← fingerprint_shape, shape_bare, fingerprint_shape]

theorem requiredText_bare (n : Option Node) : requiredText (n.map bare) = requiredText n := by
  cases n with
  | none => rfl
  | some n => rw [Option.map_some, requiredText, text_bare, requiredText]

end Node

namespace ImportTree

theorem segmentsOf_bare (n : Node) : segmentsOf n.bare = segmentsOf n := by
  induction hn : n.size using Nat.strongRecOn generalizing n with
  | ind k ih =>
    subst hn
    rw [segmentsOf, segmentsOf.eq_1 n, Node.kind_bare, Node.child?_bare, Node.text_bare,
      Node.requiredText_bare]
    split
    · congr 1
      funext last
      cases hp : n.child? "path" with
      | none =>
        split
        · rfl
        · next h => simp [hp] at h
      | some path =>
        split
        · next h => simp [hp] at h
        · next path' h =>
          simp only [Node.child?_bare, hp, Option.map_some, Option.some.injEq] at h
          subst h
          rw [ih path.size (Node.size_child?_lt hp) path rfl]
    · rfl

theorem segments_bare (path : Option Node) : segments (path.map Node.bare) = segments path := by
  cases path with
  | none => rfl
  | some n => rw [Option.map_some, segments, segmentsOf_bare, segments]

theorem withPath_bare (path : Option Node) (t : ImportTree) :
    withPath (path.map Node.bare) t = withPath path t := by
  rw [withPath, segments_bare, withPath]

theorem mapM_read_bare {cs : List Node} (h : ∀ c ∈ cs, read c.bare = read c) :
    (cs.map Node.bare).mapM read = cs.mapM read := by
  induction cs with
  | nil => rfl
  | cons c cs ih =>
    rw [List.map_cons, List.mapM_cons, h c List.mem_cons_self,
      ih fun d hd => h d (List.mem_cons_of_mem _ hd), List.mapM_cons]

theorem read_bare (n : Node) : read n.bare = read n := by
  induction hn : n.size using Nat.strongRecOn generalizing n with
  | ind k ih =>
    subst hn
    rw [read_eq, read_eq n, Node.kind_bare]
    split
    · rw [Node.child?_bare]
      cases ha : n.child? "argument" with
      | none => rfl
      | some argument => exact ih argument.size (Node.size_child?_lt ha) argument rfl
    · rw [Node.child?_bare, Node.requiredText_bare, Node.child?_bare]
      simp only [withPath_bare]
    · rw [Node.child?_bare, segments_bare, Node.child?_bare, Node.requiredText_bare]
    · rw [Node.head?_phrases_bare, withPath_bare]
    · rw [Node.child?_bare]
      cases hl : n.child? "list" with
      | none => rfl
      | some list =>
        simp only [Option.map_some, Node.child?_bare, withPath_bare,
          ih list.size (Node.size_child?_lt hl) list rfl]
    · have hp : ∀ c ∈ n.phrases, read c.bare = read c := fun c hc =>
        ih c.size (Nat.lt_of_le_of_lt (Node.size_le_sizes_of_mem hc) (Node.sizes_phrases_lt n)) c rfl
      rw [Node.phrases_bare, mapM_read_bare hp]
    · rw [Node.text_bare]

end ImportTree

namespace Site

def bare : Site → Site
  | item n => item n.bare
  | function n => function n.bare
  | expression n => expression n.bare
  | word n => word n.bare
  | absent => absent
  | imports t => imports t

theorem fingerprint?_bare (s : Site) : s.bare.fingerprint? = s.fingerprint? := by
  cases s with
  | item n => exact congrArg some n.fingerprint_bare
  | function n => exact congrArg some n.fingerprint_bare
  | expression n => exact congrArg some n.fingerprint_bare
  | word n => exact congrArg some n.fingerprint_bare
  | absent => rfl
  | imports t => rfl

theorem ofItem_bare (n : Node) : ofItem n.bare = (ofItem n).map bare := by
  rw [ofItem, Node.itemKind_bare, ImportTree.read_bare, ofItem]
  split
  · cases ImportTree.read n <;> rfl
  · rfl

theorem mapM_ofItem_bare (ns : List Node) :
    (ns.map Node.bare).mapM ofItem = (ns.mapM ofItem).map (List.map bare) := by
  induction ns with
  | nil => rfl
  | cons n ns ih =>
    rw [List.map_cons, List.mapM_cons, ofItem_bare, ih, List.mapM_cons]
    cases ofItem n with
    | error e => rfl
    | ok s => cases ns.mapM ofItem <;> rfl

theorem entering_bare (n : Node) (field : String) :
    entering n.bare field = (entering n field).map bare := by
  rw [entering, Node.child?_bare, entering]
  cases n.child? field <;> rfl

/-- A place without its position leads to the same places without theirs. -/
theorem expand_bare (s : Site) : s.bare.expand = s.expand.map (List.map bare) := by
  have mapped : ∀ (f : Node → Site) (ns : List Node), (∀ n, (f n).bare = f n.bare) →
      (ns.map Node.bare).map f = (ns.map f).map bare := by
    intro f ns hf
    simp [hf]
  cases s with
  | item n =>
    simp only [bare, expand, Node.itemKind_bare]
    split
    · rw [Node.child?_bare]
      cases n.child? "alias" with
      | none => rfl
      | some newName => rw [Node.child?_bare]; cases n.child? "name" <;> rfl
    · exact congrArg _ (entering_bare n "value")
    · exact congrArg _ (entering_bare n "value")
    · exact congrArg _ (entering_bare n "body")
    · rw [Node.bodyItems_bare]; exact mapM_ofItem_bare n.bodyItems
    · rw [Node.bodyItems_bare]; exact mapM_ofItem_bare n.bodyItems
    · rw [Node.methods_bare]; exact congrArg _ (mapped function n.methods fun _ => rfl)
    · rfl
  | function n => exact congrArg _ (entering_bare n "body")
  | expression n =>
    simp only [bare, expand, Node.parts_bare]
    exact congrArg _ (mapped expression n.parts fun _ => rfl)
  | word n => rfl
  | absent => rfl
  | imports t =>
    simp only [bare, expand, Except.map]
    simp [bare]

end Site

end RustMetrics
