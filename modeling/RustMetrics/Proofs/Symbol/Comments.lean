import Mathlib.Data.List.Forall2
import RustMetrics.Proofs.Symbol.Outline

/-! Comments and layout leave the outline of a file as it is. Two syntax trees are alike if they
have the same nodes but for where these stand, what text they cover and extra nodes in between.
Then all that an outline looks at is alike in both: the items of a file, the type of an `impl`,
the statements of a block, what follows an `else`. Texts matter only where names are read.

An extra node under a field would be found in place of the child that the field is for, so one
that stands in only one of the two trees is under no field. -/

namespace RustMetrics

/-- Two nodes have the same role if their labels differ at most in text, place and marks of
errors. -/
structure Label.SameRole (l m : Label) : Prop where
  kind : l.kind = m.kind
  named : l.named = m.named
  extra : l.extra = m.extra
  field : l.field = m.field

theorem Label.SameRole.symm {l m : Label} (h : l.SameRole m) : m.SameRole l :=
  ⟨h.kind.symm, h.named.symm, h.extra.symm, h.field.symm⟩

namespace Node

mutual

/-- Two nodes of the same role with the same nodes below them, extra ones apart. -/
inductive Alike : Node → Node → Prop
  | node {l m : Label} {cs ds : List Node} :
      l.SameRole m → AllAlike cs ds → Alike (node l cs) (node m ds)

/-- Two rows of nodes that are alike one by one, with extra nodes anywhere in both. -/
inductive AllAlike : List Node → List Node → Prop
  | nil : AllAlike [] []
  | left {c : Node} {cs ds : List Node} :
      c.label.extra = true → c.label.field = "" → AllAlike cs ds → AllAlike (c :: cs) ds
  | right {d : Node} {cs ds : List Node} :
      d.label.extra = true → d.label.field = "" → AllAlike cs ds → AllAlike cs (d :: ds)
  | cons {c d : Node} {cs ds : List Node} :
      Alike c d → AllAlike cs ds → AllAlike (c :: cs) (d :: ds)

end

/-- The node whose text is the name of a function or an `impl`. -/
inductive NamedBy : Node → Node → Prop
  | function {n c : Node} : n.kind = "function_item" → n.child? "name" = some c → NamedBy n c
  | impl {n type c : Node} : n.kind = "impl_item" → n.child? "type" = some type →
      type.StartsWith c → NamedBy n c

/-- The names of two functions or `impl` blocks, if they have any, are the same bytes. -/
def SameName (n m : Node) : Prop := ∀ c d, n.NamedBy c → m.NamedBy d → c.text = d.text

/-- What is named in two files has the same names, one by one. -/
def SameNames (n m : Node) : Prop :=
  List.Forall₂ SameName (n.declarations.flatMap named) (m.declarations.flatMap named)

variable {n m c d : Node} {cs ds : List Node} {name : String}

theorem SameName.symm (h : n.SameName m) : m.SameName n := fun c d hc hd => (h d c hd hc).symm

theorem SameNames.symm (h : n.SameNames m) : m.SameNames n :=
  List.Forall₂.flip (h.imp fun _ _ => SameName.symm)

theorem called_iff : n.Called name ↔ ∃ c, n.NamedBy c ∧ c.text = Utf8.encode name := by
  constructor
  · rintro (⟨hk, hc, ht⟩ | ⟨hk, hc, hm, ht⟩)
    · exact ⟨_, .function hk hc, ht⟩
    · exact ⟨_, .impl hk hc hm, ht⟩
  · rintro ⟨c, ⟨hk, hc⟩ | ⟨hk, hc, hm⟩, ht⟩
    · exact .function hk hc ht
    · exact .impl hk hc hm ht

/-! ### Children -/

theorem Alike.role : Alike n m → n.label.SameRole m.label
  | .node h _ => h

theorem Alike.children : Alike n m → AllAlike n.children m.children
  | .node _ h => h

theorem Alike.kind_eq (h : Alike n m) : n.kind = m.kind := h.role.kind

mutual

theorem Alike.symm : {n m : Node} → Alike n m → Alike m n
  | _, _, .node h hs => .node h.symm hs.symm

theorem AllAlike.symm : {cs ds : List Node} → AllAlike cs ds → AllAlike ds cs
  | _, _, .nil => .nil
  | _, _, .left hx hf hs => .right hx hf hs.symm
  | _, _, .right hx hf hs => .left hx hf hs.symm
  | _, _, .cons h hs => .cons h.symm hs.symm

end

theorem AllAlike.phrases : {cs ds : List Node} → AllAlike cs ds →
    List.Forall₂ Alike (cs.filter fun c => c.label.named && !c.label.extra)
      (ds.filter fun d => d.label.named && !d.label.extra)
  | _, _, .nil => .nil
  | _, _, .left hx _ hs => by
    rw [List.filter_cons_of_neg (by simp [hx])]
    exact hs.phrases
  | _, _, .right hx _ hs => by
    rw [List.filter_cons_of_neg (by simp [hx])]
    exact hs.phrases
  | c :: _, d :: _, .cons h hs => by
    rw [List.filter_cons, List.filter_cons, h.role.named, h.role.extra]
    split
    · exact .cons h hs.phrases
    · exact hs.phrases

theorem Alike.phrases (h : Alike n m) : List.Forall₂ Alike n.phrases m.phrases :=
  h.children.phrases

theorem AllAlike.heldAs {field : String} (hfield : field ≠ "") : {cs ds : List Node} →
    AllAlike cs ds → Option.Rel Alike (heldAs cs field) (heldAs ds field)
  | _, _, .nil => .none
  | _, _, .left _ hf hs => by
    rw [heldAs_cons_of_ne _ (hf ▸ hfield.symm)]
    exact hs.heldAs hfield
  | _, _, .right _ hf hs => by
    rw [heldAs_cons_of_ne _ (hf ▸ hfield.symm)]
    exact hs.heldAs hfield
  | c :: cs, d :: ds, .cons h hs => by
    by_cases hc : c.label.field = field
    · have hd : d.label.field = field := h.role.field ▸ hc
      have hcs := heldAs_cons_self c cs
      have hds := heldAs_cons_self d ds
      rw [hc] at hcs
      rw [hd] at hds
      rw [hcs, hds]
      exact .some h
    · rw [heldAs_cons_of_ne _ hc, heldAs_cons_of_ne _ (h.role.field ▸ hc)]
      exact hs.heldAs hfield

theorem Alike.child? (h : Alike n m) {field : String} (hfield : field ≠ "") :
    Option.Rel Alike (n.child? field) (m.child? field) :=
  h.children.heldAs hfield

theorem exists_child? (h : Alike n m) {field : String} (hfield : field ≠ "")
    (hc : n.child? field = some c) : ∃ d, m.child? field = some d ∧ Alike c d := by
  have hrel := h.child? hfield
  rw [hc] at hrel
  cases hd : m.child? field with
  | none =>
    rw [hd] at hrel
    cases hrel
  | some d =>
    rw [hd] at hrel
    cases hrel with
    | some h => exact ⟨d, rfl, h⟩

/-! ### Expressions -/

theorem forall₂_toList {a b : Option Node} (h : Option.Rel Alike a b) :
    List.Forall₂ Alike a.toList b.toList := by
  cases h with
  | none => exact .nil
  | some h => exact .cons h .nil

theorem rel_head? (h : List.Forall₂ Alike cs ds) : Option.Rel Alike cs.head? ds.head? := by
  cases h with
  | nil => exact .none
  | cons h _ => exact .some h

theorem filter_alike (p : String → Bool) (h : List.Forall₂ Alike cs ds) :
    List.Forall₂ Alike (cs.filter fun c => p c.kind) (ds.filter fun d => p d.kind) :=
  List.rel_filter (fun _ _ hcd => by simp only [hcd.kind_eq]) h

theorem Alike.statements (h : Alike n m) : List.Forall₂ Alike n.statements m.statements := by
  refine List.rel_filterMap (fun c d hcd => ?_) h.phrases
  rw [hcd.kind_eq]
  split
  · exact .none
  · split
    · exact rel_head? hcd.phrases
    · exact .some hcd

theorem rel_bind {f : Node → Option Node} {a b : Option Node}
    (hf : ∀ c d, Alike c d → Option.Rel Alike (f c) (f d)) (h : Option.Rel Alike a b) :
    Option.Rel Alike (a.bind f) (b.bind f) := by
  cases h with
  | none => exact .none
  | some h => exact hf _ _ h

theorem Alike.elseTarget? (h : Alike n m) : Option.Rel Alike n.elseTarget? m.elseTarget? :=
  rel_bind (fun _ _ h => rel_head? h.phrases) (h.child? (by decide))

theorem Alike.branches (h : Alike n m) : List.Forall₂ Alike n.branches m.branches :=
  List.rel_append (forall₂_toList (h.child? (by decide))) (forall₂_toList h.elseTarget?)

theorem Alike.sides (h : Alike n m) : List.Forall₂ Alike n.sides m.sides :=
  List.rel_append (forall₂_toList (h.child? (by decide))) (forall₂_toList (h.child? (by decide)))

theorem Alike.parts (h : Alike n m) : List.Forall₂ Alike n.parts m.parts := by
  unfold Node.parts
  rw [h.kind_eq]
  split
  · exact filter_alike (· != "attribute_item") h.phrases
  · exact h.sides
  · exact h.sides
  · exact h.statements
  · exact filter_alike (· != "label") h.phrases
  · exact List.rel_append (forall₂_toList (h.child? (by decide))) h.branches
  · exact .nil

theorem Alike.controlled (h : Alike n m) : List.Forall₂ Alike n.controlled m.controlled := by
  unfold Node.controlled
  rw [h.kind_eq]
  split
  · exact h.branches
  · exact h.parts

/-- The induction is on the size of one of the two: counting goes on in smaller expressions. -/
theorem Alike.decisions (h : Alike n m) : n.decisions = m.decisions := by
  induction hk : n.size using Nat.strongRecOn generalizing n m with
  | ind k ih =>
    subst hk
    have hbelow : n.controlled.map Node.decisions = m.controlled.map Node.decisions := by
      rw [← List.forall₂_eq_eq_eq, List.forall₂_map_left_iff, List.forall₂_map_right_iff,
        List.forall₂_iff_zip]
      refine ⟨h.controlled.length_eq, ?_⟩
      intro c d hz
      have hle := size_le_sizes_of_mem (List.of_mem_zip hz).1
      exact ih c.size (Nat.lt_of_le_of_lt hle (sizes_controlled_lt n))
        (List.forall₂_zip h.controlled hz) rfl
    rw [n.decisions_eq, m.decisions_eq, hbelow, h.kind_eq]

theorem decisionsOf_rel {a b : Option Node} (h : Option.Rel Alike a b) :
    decisionsOf a = decisionsOf b := by
  cases h with
  | none => rfl
  | some h => exact h.decisions

/-! ### Names -/

theorem Alike.sheds (h : Alike n m) (hc : n.Sheds c) : ∃ d, m.Sheds d ∧ Alike c d := by
  cases hc with
  | applied hk hc =>
    obtain ⟨d, hd, hcd⟩ := exists_child? h (by decide) hc
    exact ⟨d, .applied (h.kind_eq ▸ hk) hd, hcd⟩
  | path hk hc =>
    obtain ⟨d, hd, hcd⟩ := exists_child? h (by decide) hc
    exact ⟨d, .path (h.kind_eq ▸ hk) hd, hcd⟩
  | name hk hp hc =>
    obtain ⟨d, hd, hcd⟩ := exists_child? h (by decide) hc
    have hpath : m.child? "path" = none := by
      rw [Option.eq_none_iff_forall_ne_some]
      intro e he
      obtain ⟨x, hx, _⟩ := exists_child? h.symm (by decide) he
      rw [hp] at hx
      cases hx
    exact ⟨d, .name (h.kind_eq ▸ hk) hpath hd, hcd⟩

theorem Alike.startsWith (h : Alike n m) (hc : n.StartsWith c) : ∃ d, m.StartsWith d := by
  induction hc generalizing m with
  | here hk => exact ⟨m, .here (h.kind_eq ▸ hk)⟩
  | step hs _ ih =>
    obtain ⟨x, hx, hcx⟩ := h.sheds hs
    obtain ⟨d, hd⟩ := ih hcx
    exact ⟨d, .step hx hd⟩

theorem Alike.namedBy (h : Alike n m) (hc : n.NamedBy c) : ∃ d, m.NamedBy d := by
  cases hc with
  | function hk hc =>
    obtain ⟨d, hd, _⟩ := exists_child? h (by decide) hc
    exact ⟨d, .function (h.kind_eq ▸ hk) hd⟩
  | impl hk ht hc =>
    obtain ⟨type, htype, hlike⟩ := exists_child? h (by decide) ht
    obtain ⟨d, hd⟩ := hlike.startsWith hc
    exact ⟨d, .impl (h.kind_eq ▸ hk) htype hd⟩

theorem Alike.called (h : Alike n m) (hs : n.SameName m) (hc : n.Called name) :
    m.Called name := by
  obtain ⟨c, hc, ht⟩ := called_iff.mp hc
  obtain ⟨d, hd⟩ := h.namedBy hc
  exact called_iff.mpr ⟨d, hd, hs c d hc hd ▸ ht⟩

/-! ### Symbols -/

theorem Alike.declarations (h : Alike n m) :
    List.Forall₂ Alike n.declarations m.declarations :=
  filter_alike (fun kind => kind == "function_item" || kind == "impl_item") h.phrases

theorem Alike.bodyFunctions (h : Alike n m) :
    List.Forall₂ Alike n.bodyFunctions m.bodyFunctions :=
  List.rel_flatMap (forall₂_toList (h.child? (by decide))) fun _ _ h =>
    filter_alike (· == "function_item") h.phrases

theorem Alike.named (h : Alike n m) : List.Forall₂ Alike n.named m.named := by
  unfold Node.named
  rw [h.kind_eq]
  split
  · exact .cons h h.bodyFunctions
  · exact .cons h .nil

/-- A row made of the parts of several nodes can be taken apart again where the nodes are alike,
if alike nodes have as many parts. -/
theorem forall₂_of_flatMap {f : Node → List Node} {R : Node → Node → Prop}
    (hf : ∀ c d, Alike c d → (f c).length = (f d).length) (h : List.Forall₂ Alike cs ds)
    (hparts : List.Forall₂ R (cs.flatMap f) (ds.flatMap f)) :
    List.Forall₂ (fun c d => Alike c d ∧ List.Forall₂ R (f c) (f d)) cs ds := by
  induction h with
  | nil => exact .nil
  | @cons c d cs ds hcd _ ih =>
    rw [List.flatMap_cons, List.flatMap_cons] at hparts
    have hfirst := List.forall₂_take (f c).length hparts
    have hrest := List.forall₂_drop (f c).length hparts
    rw [List.take_left, hf c d hcd, List.take_left] at hfirst
    rw [List.drop_left, hf c d hcd, List.drop_left] at hrest
    exact .cons ⟨hcd, hfirst⟩ (ih hrest)

/-- What the nodes of one row depict, those of another do if each depicts as much. -/
theorem forall₂_depicted {R : Node → Node → Prop} {D : Node → SymbolTree → Prop}
    {ts : List SymbolTree} (hstep : ∀ c d t, R c d → D c t → D d t) (h : List.Forall₂ R cs ds)
    (hts : List.Forall₂ D cs ts) : List.Forall₂ D ds ts := by
  induction h generalizing ts with
  | nil => exact hts
  | cons hcd _ ih =>
    cases hts with
    | cons ht hts => exact .cons (hstep _ _ _ hcd ht) (ih hts)

variable {t : SymbolTree}

theorem Alike.depictsMethod (h : Alike n m) (hs : n.SameName m) (ht : n.DepictsMethod t) :
    m.DepictsMethod t := by
  obtain ⟨name, hname, rfl⟩ := ht
  refine ⟨name, h.called hs hname, ?_⟩
  rw [decisionsOf_rel (h.child? (by decide))]

theorem Alike.depicts (h : Alike n m) (hs : List.Forall₂ SameName n.named m.named)
    (ht : n.Depicts t) : m.Depicts t := by
  cases ht with
  | function hk hname =>
    have hk' : m.kind = "function_item" := h.kind_eq ▸ hk
    rw [Node.named, if_neg (by simp [hk]), Node.named, if_neg (by simp [hk'])] at hs
    rw [decisionsOf_rel (h.child? (by decide))]
    exact .function hk' (h.called (List.forall₂_cons.mp hs).1 hname)
  | impl hk hname hts =>
    have hk' : m.kind = "impl_item" := h.kind_eq ▸ hk
    rw [Node.named, if_pos hk, Node.named, if_pos hk'] at hs
    obtain ⟨hself, hmethods⟩ := List.forall₂_cons.mp hs
    have hboth : List.Forall₂ (fun c d => Alike c d ∧ SameName c d)
        n.bodyFunctions m.bodyFunctions :=
      h.bodyFunctions.mp (fun _ _ => And.intro) hmethods
    exact .impl hk' (h.called hself hname)
      (forall₂_depicted (fun _ _ _ hcd => hcd.1.depictsMethod hcd.2) hboth hts)

theorem outline_ok_of_alike {path path' label : String} (h : Alike n m) (hs : n.SameNames m)
    (ht : n.outline path label = .ok t) : m.outline path' label = .ok t := by
  obtain ⟨ts, rfl, hts⟩ := outline_eq_ok_iff.mp ht
  have hboth := forall₂_of_flatMap (fun _ _ h => h.named.length_eq) h.declarations hs
  exact outline_eq_ok_iff.mpr
    ⟨ts, rfl, forall₂_depicted (fun _ _ _ hcd => hcd.1.depicts hcd.2) hboth hts⟩

/-- Two files that differ only in layout and in extra nodes, and that use the same names, have
equal outlines under one label, or none of them has an outline. -/
theorem outline_of_alike (h : Alike n m) (hs : n.SameNames m) (path path' label : String) :
    (n.outline path label).toOption = (m.outline path' label).toOption :=
  toOption_congr fun _ => ⟨outline_ok_of_alike h hs, outline_ok_of_alike h.symm hs.symm⟩

mutual

theorem Alike.refl : (n : Node) → Alike n n
  | node _ cs => .node ⟨rfl, rfl, rfl, rfl⟩ (.refl cs)

theorem AllAlike.refl : (cs : List Node) → AllAlike cs cs
  | [] => .nil
  | c :: cs => .cons (.refl c) (.refl cs)

end

theorem sameName_of_declaredName (path name : String) (hn : n.declaredName path = .ok name)
    (hm : m.declaredName path = .ok name) : n.SameName m := by
  have htext : ∀ {n c : Node}, n.declaredName path = .ok name → n.NamedBy c →
      c.text = Utf8.encode name := by
    intro n c h hc
    cases hc with
    | function hk hc =>
      rw [declaredName_of_function hk, hc] at h
      exact decoded_eq_ok_iff.mp h
    | impl hk ht hc =>
      rw [declaredName_of_impl hk, implName_of_startsWith ht hc] at h
      exact decoded_eq_ok_iff.mp h
  intro c d hc hd
  rw [htext hn hc, htext hm hd]

theorem AllAlike.insert {gap : List Node}
    (hgap : ∀ c ∈ gap, c.label.extra = true ∧ c.label.field = "") (h : AllAlike cs ds) :
    AllAlike cs (gap ++ ds) := by
  induction gap with
  | nil => exact h
  | cons c gap ih =>
    obtain ⟨hx, hf⟩ := hgap c List.mem_cons_self
    exact .right hx hf (ih fun c hc => hgap c (List.mem_cons_of_mem _ hc))

/-- `if c {} else {}`, with a gap before the last block. -/
def twoWays (gap : List Node) : Node :=
  .phrase 11 "if_expression" "" ""
    [.phrase 12 "identifier" "condition" "c" [], .phrase 13 "block" "consequence" "" [],
      .phrase 14 "else_clause" "alternative" "" (gap ++ [.phrase 15 "block" "" "" []])]

/-- `fn f() { if c {} else {}; }`, with gaps before the name and wherever a first phrase is
looked for. -/
def choosing (gap : List Node) : Node :=
  .phrase 7 "function_item" "" ""
    (gap ++ [.phrase 8 "identifier" "name" "f" [],
      .phrase 9 "block" "body" ""
        (gap ++ [.phrase 10 "expression_statement" "" "" (gap ++ [twoWays gap])])])

/-- `impl a::B { fn f() { if c {} else {}; } }`, with gaps before the first child of each node.
Texts that nothing reads are left out. -/
def choosingImpl (gap : List Node) : Node :=
  .phrase 1 "impl_item" "" ""
    (gap ++ [.phrase 2 "scoped_type_identifier" "type" ""
        (gap ++ [.phrase 3 "identifier" "path" "a" [], .phrase 4 "type_identifier" "name" "B" []]),
      .phrase 5 "declaration_list" "body" "" (gap ++ [choosing gap])])

def choosingFile (gap : List Node) : Node :=
  .phrase 0 "source_file" "" "" (gap ++ [choosingImpl gap])

def blockComment : Node :=
  .node ⟨"block_comment", true, true, false, false, "", ⟨0, 0⟩, "/* if */".toUTF8, 99⟩ []

theorem alike_choosingFile {gap : List Node}
    (hgap : ∀ c ∈ gap, c.label.extra = true ∧ c.label.field = "") :
    (choosingFile []).Alike (choosingFile gap) := by
  have role : ∀ l : Label, l.SameRole l := fun _ => ⟨rfl, rfl, rfl, rfl⟩
  have hif : (twoWays []).Alike (twoWays gap) :=
    .node (role _) (.cons (.refl _) (.cons (.refl _)
      (.cons (.node (role _) (.insert hgap (.refl _))) .nil)))
  have hfn : (choosing []).Alike (choosing gap) :=
    .node (role _) (.insert hgap (.cons (.refl _) (.cons (.node (role _) (.insert hgap
      (.cons (.node (role _) (.insert hgap (.cons hif .nil))) .nil))) .nil)))
  have himpl : (choosingImpl []).Alike (choosingImpl gap) :=
    .node (role _) (.insert hgap (.cons (.node (role _) (.insert hgap (.refl _)))
      (.cons (.node (role _) (.insert hgap (.cons hfn .nil))) .nil)))
  exact .node (role _) (.insert hgap (.cons himpl .nil))

theorem sameNames_choosingFile : (choosingFile []).SameNames (choosingFile [blockComment]) :=
  .cons (sameName_of_declaredName "" "a" (eq_ok_of_toOption (by decide +kernel))
      (eq_ok_of_toOption (by decide +kernel)))
    (.cons (sameName_of_declaredName "" "f" (eq_ok_of_toOption (by decide +kernel))
      (eq_ok_of_toOption (by decide +kernel))) .nil)

/-- An `if` inside a comment is not counted, and a comment before a name or a block is not taken
for it. -/
theorem outline_of_choosingFile :
    (choosingFile []).outline "a.rs" "x" =
        .ok (.node "x" .file 0 [.node "a" .impl 0 [.node "f" .method 1 []]]) ∧
      ((choosingFile []).outline "a.rs" "x").toOption =
        ((choosingFile [blockComment]).outline "b.rs" "x").toOption := by
  have himpl : (choosingImpl []).Called "a" :=
    .impl rfl rfl (.step (.path rfl rfl) (.here rfl)) (by decide +kernel)
  have hfn : (choosing []).Called "f" := .function rfl rfl (by decide +kernel)
  have hcount : decisionsOf ((choosing []).child? "body") = 1 := by decide +kernel
  have hgap : ∀ c ∈ [blockComment], c.label.extra = true ∧ c.label.field = "" := by
    intro c hc
    rw [List.mem_singleton.mp hc]
    exact ⟨rfl, rfl⟩
  have hmethod : (choosing []).DepictsMethod (.node "f" .method 1 []) :=
    ⟨"f", hfn, by rw [hcount]; rfl⟩
  exact ⟨outline_eq_ok_iff.mpr ⟨_, rfl, .cons (.impl rfl himpl (.cons hmethod .nil)) .nil⟩,
    outline_of_alike (alike_choosingFile hgap) sameNames_choosingFile _ _ _⟩

end Node

end RustMetrics
