import Mathlib.Data.List.Forall2
import RustMetrics.Proofs.Fingerprint.Cache
import RustMetrics.Proofs.Fingerprint.Message

/-! Extra nodes and fingerprints. Two files that differ only in their comments have the same
nodes otherwise, each in a place that both have, and the fingerprints in such a place are
made from the same kinds and tokens. One place is different: a node that holds nothing but
extra nodes is hashed with its text, and its text has the extra nodes in it. A file of
comments only is such a node. -/

namespace RustMetrics.Node

mutual

/-- Two nodes that differ only in extra nodes below them: they have one kind, and one text if
they are tokens. -/
inductive Matches : Node → Node → Prop
  | node {l m : Label} {cs ds : List Node} :
      l.kind = m.kind → (cs = [] → ds = [] → l.text = m.text) → AllMatch cs ds →
      Matches (node l cs) (node m ds)

/-- Two rows of nodes that match one by one, with extra nodes anywhere in both. -/
inductive AllMatch : List Node → List Node → Prop
  | nil : AllMatch [] []
  | left {c : Node} {cs ds : List Node} :
      c.label.extra = true → AllMatch cs ds → AllMatch (c :: cs) ds
  | right {d : Node} {cs ds : List Node} :
      d.label.extra = true → AllMatch cs ds → AllMatch cs (d :: ds)
  | cons {c d : Node} {cs ds : List Node} :
      c.label.extra = false → d.label.extra = false → Matches c d → AllMatch cs ds →
      AllMatch (c :: cs) (d :: ds)

end

/-- The places that two nodes have in common: their own, and below such a place those of the
children that are not extra, in order. -/
inductive Counterpart (n m : Node) : Node → Node → Prop
  | self : Counterpart n m n m
  | child {u v x y : Node} :
      Counterpart n m u v → (x, y) ∈ u.solidChildren.zip v.solidChildren → Counterpart n m x y

/-- Below two nodes in one place there is nothing but extra nodes, and below one of them there
is some. -/
def OnlyExtras (u v : Node) : Prop := u.solidChildren = [] ∧ (u.children ≠ [] ∨ v.children ≠ [])

variable {n m u v x y : Node}

theorem AllMatch.forall₂ : {cs ds : List Node} → AllMatch cs ds →
    List.Forall₂ Matches (cs.filter fun c => !c.label.extra) (ds.filter fun d => !d.label.extra)
  | _, _, .nil => .nil
  | _, _, .left hc hs => by
    rw [List.filter_cons_of_neg (by simp [hc])]
    exact hs.forall₂
  | _, _, .right hd hs => by
    rw [List.filter_cons_of_neg (by simp [hd])]
    exact hs.forall₂
  | _, _, .cons hc hd h hs => by
    rw [List.filter_cons_of_pos (by simp [hc]), List.filter_cons_of_pos (by simp [hd])]
    exact .cons h hs.forall₂

theorem Matches.kind_eq : Matches n m → n.kind = m.kind
  | .node hkind _ _ => hkind

theorem Matches.text_eq : Matches n m → n.children = [] → m.children = [] →
    n.label.text = m.label.text
  | .node _ htext _ => htext

theorem Matches.solidChildren : Matches n m →
    List.Forall₂ Matches n.solidChildren m.solidChildren
  | .node _ _ hs => hs.forall₂

theorem Matches.counterpart (h : Matches n m) (hc : Counterpart n m x y) : Matches x y := by
  induction hc with
  | self => exact h
  | child _ hz ih => exact (List.forall₂_iff_zip.mp ih.solidChildren).2 hz

theorem Counterpart.trans (h : Counterpart n m u v) (hc : Counterpart u v x y) :
    Counterpart n m x y := by
  induction hc with
  | self => exact h
  | child _ hz ih => exact ih.child hz

/-- The fingerprint does not depend on the text of a node with anything below it that is not
extra. -/
theorem combine_text {k : String} {t t' : ByteArray} {fs : List Fingerprint} (h : fs ≠ []) :
    Fingerprint.combine k t fs = .combine k t' fs := by
  have hempty : fs.isEmpty = false := by simpa using h
  rw [Fingerprint.combine, Fingerprint.combine, Fingerprint.message, Fingerprint.message, hempty]
  rfl

/-- The induction is on the size of one of the two. A place below a child is a place below its
parent, so the condition is handed down. -/
theorem Matches.fingerprint_eq (h : Matches x y)
    (htext : ∀ u v, Counterpart x y u v → OnlyExtras u v → u.label.text = v.label.text) :
    x.fingerprint = y.fingerprint := by
  induction hk : x.size using Nat.strongRecOn generalizing x y with
  | ind k ih =>
    subst hk
    have hlen : x.solidChildren.length = y.solidChildren.length := h.solidChildren.length_eq
    have hchildren : x.solidChildren.map fingerprint = y.solidChildren.map fingerprint := by
      rw [← List.forall₂_eq_eq_eq, List.forall₂_map_left_iff, List.forall₂_map_right_iff,
        List.forall₂_iff_zip]
      refine ⟨hlen, ?_⟩
      intro c d hz
      have hcd : Counterpart x y c d := Counterpart.self.child hz
      have hlt : c.size < x.size := by
        have hle := size_le_sizes_of_mem (List.mem_of_mem_filter (List.of_mem_zip hz).1)
        rw [size_eq x]
        omega
      exact ih c.size hlt (h.counterpart hcd) (fun u v huv => htext u v (hcd.trans huv)) rfl
    rw [x.fingerprint_eq, y.fingerprint_eq, h.kind_eq, ← hchildren]
    by_cases hx : x.solidChildren = []
    · have hsame : x.label.text = y.label.text := by
        by_cases hbare : x.children = [] ∧ y.children = []
        · exact h.text_eq hbare.1 hbare.2
        · exact htext x y .self ⟨hx, not_and_or.mp hbare⟩
      rw [hsame]
    · exact combine_text (by simpa using hx)

theorem Matches.solidChildren_eq_nil (h : Matches x y) (hx : x.solidChildren = []) :
    y.solidChildren = [] := by
  rw [← List.length_eq_zero_iff, ← h.solidChildren.length_eq, hx]
  rfl

/-- With nothing but extra nodes below, all that two messages can differ in is the text. -/
theorem Matches.message_eq_iff (h : Matches x y) (hx : x.solidChildren = []) :
    (Subject.node x).message = (Subject.node y).message ↔ x.label.text = y.label.text := by
  have hy := h.solidChildren_eq_nil hx
  rw [Subject.message_of_leaf (by rw [Subject.parts, hx]; rfl),
    Subject.message_of_leaf (by rw [Subject.parts, hy]; rfl)]
  show Utf8.encode x.kind ++ _ = Utf8.encode y.kind ++ _ ↔ _
  rw [h.kind_eq, List.append_cancel_left_eq, List.cons.injEq, eq_self, true_and]
  exact Utf8.toList_injective.eq_iff

/-- In two files that differ only in extra nodes, the nodes in one place have one fingerprint,
unless in some place below there is nothing but extra nodes and the texts differ. In such a
place the texts are hashed, and the messages differ too. -/
theorem extras_leave_fingerprints (h : Matches n m) (hc : Counterpart n m x y) :
    ((∀ u v, Counterpart x y u v → OnlyExtras u v → u.label.text = v.label.text) →
      x.fingerprint = y.fingerprint) ∧
    (OnlyExtras x y → ((Subject.node x).message = (Subject.node y).message ↔
      x.label.text = y.label.text)) :=
  ⟨(h.counterpart hc).fingerprint_eq, fun hx => (h.counterpart hc).message_eq_iff hx.1⟩

theorem Counterpart.mem_preorder (h : Counterpart n m x y) :
    x ∈ n.preorder ∧ y ∈ m.preorder := by
  induction h with
  | self => exact ⟨mem_preorder_self n, mem_preorder_self m⟩
  | child _ hz ih =>
    obtain ⟨hx, hy⟩ := List.of_mem_zip hz
    exact ⟨mem_preorder_of_mem_children (List.mem_of_mem_filter hx) n ih.1,
      mem_preorder_of_mem_children (List.mem_of_mem_filter hy) m ih.2⟩

/-- No node of a tree holds nothing but extra nodes. -/
def isFilled (n : Node) : Bool :=
  n.preorder.all fun u => u.children.isEmpty || !u.solidChildren.isEmpty

theorem children_eq_nil_of_isFilled (h : n.isFilled = true) (hu : u ∈ n.preorder)
    (hs : u.solidChildren = []) : u.children = [] := by
  have hall := List.all_eq_true.mp h u hu
  simpa [hs] using hall

theorem Matches.not_onlyExtras (h : Matches n m) (hn : n.isFilled = true) (hm : m.isFilled = true)
    (hc : Counterpart n m u v) : ¬ OnlyExtras u v := by
  rintro ⟨hu, hchildren⟩
  obtain ⟨hun, hvm⟩ := hc.mem_preorder
  have hv := (h.counterpart hc).solidChildren_eq_nil hu
  rcases hchildren with hchildren | hchildren
  · exact hchildren (children_eq_nil_of_isFilled hn hun hu)
  · exact hchildren (children_eq_nil_of_isFilled hm hvm hv)

/-- A comment of a one-line file. -/
def comment (i : Nat) (kind text : String) (children : List Node) : Node :=
  node ⟨kind, true, true, false, false, "", ⟨0, i⟩, text.toUTF8, i⟩ children

/-- `struct S;` -/
def plainStruct : Node :=
  phrase 0 "source_file" "" "struct S;"
    [phrase 1 "struct_item" "" "struct S;"
      [token 2 "struct", phrase 3 "type_identifier" "name" "S" [], token 4 ";"]]

/-- `/**/ struct /*s*/ S;` -/
def annotatedStruct : Node :=
  phrase 0 "source_file" "" "/**/ struct /*s*/ S;"
    [comment 1 "block_comment" "/**/" [token 2 "/*", token 3 "*/"],
      phrase 4 "struct_item" "" "struct /*s*/ S;"
        [token 5 "struct", comment 6 "block_comment" "/*s*/" [token 7 "/*", token 8 "*/"],
          phrase 9 "type_identifier" "name" "S" [], token 10 ";"]]

theorem matches_token (i j : Nat) (text : String) : Matches (token i text) (token j text) :=
  .node rfl (fun _ _ => rfl) .nil

theorem matches_annotatedStruct : Matches plainStruct annotatedStruct := by
  have hname : Matches (phrase 3 "type_identifier" "name" "S" [])
      (phrase 9 "type_identifier" "name" "S" []) := .node rfl (fun _ _ => rfl) .nil
  refine .node rfl (fun hnil => nomatch hnil) (.right rfl (.cons rfl rfl ?_ .nil))
  refine .node rfl (fun hnil => nomatch hnil) (.cons rfl rfl (matches_token 2 5 "struct") ?_)
  exact .right rfl (.cons rfl rfl hname (.cons rfl rfl (matches_token 4 10 ";") .nil))

/-- Comments before an item and inside of it leave the fingerprint of the file alone. -/
theorem extras_leave_fingerprints_of_struct :
    Matches plainStruct annotatedStruct ∧
      plainStruct.fingerprint = annotatedStruct.fingerprint := by
  refine ⟨matches_annotatedStruct,
    (extras_leave_fingerprints matches_annotatedStruct .self).1 ?_⟩
  intro u v huv hextras
  exact absurd hextras (matches_annotatedStruct.not_onlyExtras rfl rfl huv)

/-- `// a` -/
def commentA : Node :=
  phrase 0 "source_file" "" "// a" [comment 1 "line_comment" "// a" [token 2 "//"]]

/-- `// b` -/
def commentB : Node :=
  phrase 0 "source_file" "" "// b" [comment 1 "line_comment" "// b" [token 2 "//"]]

def commentLines : List ShapeLine :=
  [⟨"source_file", "// a", [], 0xc471fd1ff933cd5d⟩, ⟨"source_file", "// b", [], 0xf69f58fa4002f470⟩]

theorem commentLines_correct : ShapeLine.allCorrect [] commentLines = true := by decide +kernel

/-- Two files with nothing but a comment differ only in extra nodes, but not in the same
fingerprint. -/
theorem comment_changes_fingerprint :
    ¬ ∀ n m : Node, Matches n m → ∀ x y, Counterpart n m x y → x.fingerprint = y.fingerprint := by
  intro h
  have hmatch : Matches commentA commentB :=
    .node rfl (fun hnil => nomatch hnil) (.left rfl (.right rfl .nil))
  have heq := h commentA commentB hmatch _ _ .self
  rw [fingerprint_of_line (i := 0) (n := commentA) commentLines_correct rfl rfl,
    fingerprint_of_line (i := 1) (n := commentB) commentLines_correct rfl rfl] at heq
  revert heq
  decide

end RustMetrics.Node
