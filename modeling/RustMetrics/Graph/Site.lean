import RustMetrics.Fingerprint.Cache
import RustMetrics.Import.Steps
import RustMetrics.Node.Expression

/-! The places that the graph walk visits. A place is a node together with how it is
read there, since the same function can be met as an item, which is entered, or
as a statement, which is not. A `use` declaration is replaced by its import.

The places that a place leads to are together smaller than it, which is why the
walk ends. For imports this rests on a count: reading a declaration makes at most
as many records along its branches as the declaration has nodes. -/

namespace RustMetrics

inductive Site where
  | item (n : Node)
  | function (n : Node)
  | expression (n : Node)
  | word (n : Node)
  /-- A node that should be there and is not. -/
  | absent
  | imports (t : ImportTree)

namespace Site

/-- The place of an item. -/
def ofItem (n : Node) : Except Failure Site :=
  if n.itemKind = .use then (ImportTree.read n).map imports else .ok (item n)

def ofWord : Option Node → Site
  | some n => word n
  | none => absent

/-- The child under a field, read as an expression. -/
def entering (n : Node) (field : String) : List Site :=
  (n.child? field).toList.map expression

/-- Where a place leads, in source order. -/
def expand : Site → Except Failure (List Site)
  | item n =>
    match n.itemKind with
    | .externCrate =>
      match n.child? "alias" with
      | none => .ok []
      | some newName => .ok [ofWord (n.child? "name"), word newName]
    | .static => .ok (entering n "value")
    | .const => .ok (entering n "value")
    | .fn => .ok (entering n "body")
    | .mod => n.bodyItems.mapM ofItem
    | .foreignMod => n.bodyItems.mapM ofItem
    | .impl => .ok (n.methods.map function)
    | _ => .ok []
  | function n => .ok (entering n "body")
  | expression n => .ok (n.parts.map expression)
  | word _ => .ok []
  | absent => .ok []
  | imports t => .ok (t.branches.map imports)

/-- The fingerprint of a place; a node that is not there has none. -/
def fingerprint? : Site → Option Fingerprint
  | item n => some n.fingerprint
  | function n => some n.fingerprint
  | expression n => some n.fingerprint
  | word n => some n.fingerprint
  | absent => none
  | imports t => some t.fingerprint

/-- The same through a cache. -/
def cached (cache : Cache) : Site → Option Fingerprint × Cache
  | item n => (cache.ofNode n).map some id
  | function n => (cache.ofNode n).map some id
  | expression n => (cache.ofNode n).map some id
  | word n => (cache.ofNode n).map some id
  | absent => (none, cache)
  | imports t => (cache.ofImport t).map some id

/-- The number of places that a walk can still meet from a place on. -/
def size : Site → Nat
  | item n => n.size
  | function n => n.size
  | expression n => n.size
  | word n => n.size
  | absent => 0
  | imports t => t.steps

def sizes (sites : List Site) : Nat := (sites.map size).foldr (· + ·) 0

@[simp] theorem sizes_nil : sizes [] = 0 := rfl

@[simp] theorem sizes_cons (s : Site) (sites : List Site) :
    sizes (s :: sites) = s.size + sizes sites := by simp [sizes]

theorem size_le_sizes_of_mem {s : Site} {sites : List Site} (h : s ∈ sites) :
    s.size ≤ sizes sites := by
  induction sites with
  | nil => cases h
  | cons t sites ih =>
    rcases List.mem_cons.mp h with rfl | h
    · simp
    · have := ih h
      simp only [sizes_cons]
      omega

theorem sizes_map_expression (ns : List Node) : sizes (ns.map expression) = Node.sizes ns := by
  induction ns with
  | nil => rfl
  | cons n ns ih => simp [ih, size]

theorem sizes_map_function (ns : List Node) : sizes (ns.map function) = Node.sizes ns := by
  induction ns with
  | nil => rfl
  | cons n ns ih => simp [ih, size]

theorem sizes_map_imports (ts : List ImportTree) :
    sizes (ts.map imports) = ImportTree.stepsAll ts := by
  induction ts with
  | nil => rfl
  | cons t ts ih => simp [ih, size, ImportTree.stepsAll]

theorem size_ofItem_le {n : Node} {s : Site} (h : ofItem n = .ok s) : s.size ≤ n.size := by
  unfold ofItem at h
  split at h
  · cases hr : ImportTree.read n with
    | error e => simp [hr, Except.map] at h
    | ok t =>
      simp only [hr, Except.map, Except.ok.injEq] at h
      subst h
      exact ImportTree.steps_read_le hr
  · simp only [Except.ok.injEq] at h
    subst h
    exact Nat.le_refl _

theorem sizes_mapM_ofItem_le {ns : List Node} {sites : List Site}
    (h : ns.mapM ofItem = .ok sites) : sizes sites ≤ Node.sizes ns := by
  induction ns generalizing sites with
  | nil =>
    simp only [List.mapM_nil, pure, Except.pure, Except.ok.injEq] at h
    simp [← h]
  | cons n ns ih =>
    rw [List.mapM_cons] at h
    cases hn : ofItem n with
    | error e => simp [hn, bind, Except.bind] at h
    | ok s =>
      simp only [hn, bind, Except.bind] at h
      cases hns : ns.mapM ofItem with
      | error e => simp [hns] at h
      | ok rest =>
        simp only [hns, pure, Except.pure, Except.ok.injEq] at h
        subst h
        have h₁ := size_ofItem_le hn
        have h₂ := ih hns
        simp only [sizes_cons, Node.sizes_cons]
        omega

theorem sizes_entering_lt (n : Node) (field : String) : sizes (entering n field) < n.size := by
  rw [entering, sizes_map_expression]
  exact ImportTree.sizes_child?_lt n field

/-- The name and the alias of an `extern crate` are different children. -/
theorem size_name_alias_lt {n newName : Node} (h : n.child? "alias" = some newName) :
    (ofWord (n.child? "name")).size + newName.size < n.size := by
  have hs := Node.sizes_heldAs_le n.children ["name", "alias"] (by decide)
  rw [Node.size_eq n]
  simp only [Node.child?] at *
  cases hn : Node.heldAs n.children "name" <;> simp [h, hn, ofWord, size] at hs ⊢ <;> omega

/-- Where a place leads is together smaller than the place. -/
theorem sizes_expand_lt {s : Site} {sites : List Site} {f : Fingerprint}
    (hf : s.fingerprint? = some f) (h : s.expand = .ok sites) : sizes sites < s.size := by
  cases s with
  | item n =>
    have hpos := Node.size_pos n
    simp only [expand] at h
    split at h
    · split at h
      · cases h
        simpa [size] using hpos
      · next newName ha =>
        cases h
        simpa [size] using size_name_alias_lt ha
    · cases h; exact sizes_entering_lt n _
    · cases h; exact sizes_entering_lt n _
    · cases h; exact sizes_entering_lt n _
    · exact Nat.lt_of_le_of_lt (sizes_mapM_ofItem_le h) (Node.sizes_bodyItems_lt n)
    · exact Nat.lt_of_le_of_lt (sizes_mapM_ofItem_le h) (Node.sizes_bodyItems_lt n)
    · cases h
      rw [sizes_map_function]
      exact Node.sizes_methods_lt n
    · cases h
      simpa [size] using hpos
  | function n => cases h; exact sizes_entering_lt n _
  | expression n =>
    cases h
    rw [sizes_map_expression]
    exact Node.sizes_parts_lt n
  | word n => cases h; simpa [size] using Node.size_pos n
  | absent => simp [fingerprint?] at hf
  | imports t =>
    cases h
    rw [sizes_map_imports, size, ImportTree.steps_eq]
    omega

/-- Every place that is there counts for something. -/
theorem size_pos {s : Site} {f : Fingerprint} (h : s.fingerprint? = some f) : 0 < s.size := by
  cases s with
  | item n => exact Node.size_pos n
  | function n => exact Node.size_pos n
  | expression n => exact Node.size_pos n
  | word n => exact Node.size_pos n
  | absent => simp [fingerprint?] at h
  | imports t => rw [size, ImportTree.steps_eq]; omega

end Site

end RustMetrics
