import Mathlib.Data.Set.Card
import Mathlib.Logic.Relation
import RustMetrics.Proofs.Node.Disjoint

/-! The decision points of an expression are the `if` expressions that control can come to.
`Leads` says where control goes in one step, without a stack and without an order. The count
takes each `if` once, since whatever an expression leads to lies below it in subtrees that do
not overlap; so there are never more decision points than `if` expressions. -/

namespace RustMetrics

namespace Node

/-- One step of control: from an `if` to its block or to what follows `else`, and from any
other expression to its parts. Nothing leads to the condition of an `if`. -/
inductive Leads : Node → Node → Prop
  | consequence {n c : Node} :
      n.kind = "if_expression" → n.child? "consequence" = some c → Leads n c
  | otherwise {n c : Node} : n.kind = "if_expression" → n.elseTarget? = some c → Leads n c
  | part {n c : Node} : n.kind ≠ "if_expression" → c ∈ n.parts → Leads n c

/-- Control can come from one expression to another. -/
def Reaches : Node → Node → Prop := Relation.ReflTransGen Leads

variable {n m c : Node}

theorem leads_iff : n.Leads c ↔ c ∈ n.controlled := by
  unfold controlled
  constructor
  · rintro (⟨hk, hc⟩ | ⟨hk, hc⟩ | ⟨hk, hc⟩)
    · rw [if_pos hk]
      exact List.mem_append_left _ (Option.mem_toList.mpr hc)
    · rw [if_pos hk]
      exact List.mem_append_right _ (Option.mem_toList.mpr hc)
    · rwa [if_neg hk]
  · intro hc
    split at hc
    · next hk =>
      rcases List.mem_append.mp hc with hc | hc
      · exact .consequence hk (Option.mem_toList.mp hc)
      · exact .otherwise hk (Option.mem_toList.mp hc)
    · next hk => exact .part hk hc

theorem inside_controlled (n : Node) : Inside n.controlled n.children := by
  unfold controlled
  split
  · exact n.inside_branches
  · exact n.inside_parts

/-- The expressions that control comes to, in the order of a plain recursion. -/
def reached (n : Node) : List Node := n :: n.controlled.attach.flatMap fun c => reached c.1
termination_by n.size
decreasing_by exact Nat.lt_of_le_of_lt (size_le_sizes_of_mem c.2) (sizes_controlled_lt n)

theorem reached_eq (n : Node) : n.reached = n :: n.controlled.flatMap reached := by
  rw [reached, List.flatMap_subtype (fun _ _ => rfl), List.unattach_attach]

theorem size_lt_of_mem_controlled (hc : c ∈ n.controlled) : c.size < n.size :=
  Nat.lt_of_le_of_lt (size_le_sizes_of_mem hc) (sizes_controlled_lt n)

/-- A property of an expression that follows from that of all it leads to. -/
theorem controlled_induction {P : Node → Prop} (h : ∀ n, (∀ c ∈ n.controlled, P c) → P n)
    (n : Node) : P n := by
  induction hn : n.size using Nat.strongRecOn generalizing n with
  | ind k ih =>
    subst hn
    exact h n fun c hc => ih c.size (size_lt_of_mem_controlled hc) c rfl

theorem mem_reached_iff : m ∈ n.reached ↔ n.Reaches m := by
  constructor
  · intro hm
    induction n using controlled_induction with
    | h n ih =>
      rw [reached_eq] at hm
      rcases List.mem_cons.mp hm with rfl | hm
      · exact .refl
      · obtain ⟨c, hc, hm⟩ := List.mem_flatMap.mp hm
        exact .head (leads_iff.mpr hc) (ih c hc hm)
  · intro hm
    induction hm using Relation.ReflTransGen.head_induction_on with
    | refl =>
      rw [reached_eq]
      exact List.mem_cons_self
    | head hc _ ih =>
      rw [reached_eq]
      exact List.mem_cons_of_mem _ (List.mem_flatMap.mpr ⟨_, leads_iff.mp hc, ih⟩)

/-- No node is come to more often than it occurs below. -/
theorem reached_subperm (n : Node) : n.reached.Subperm n.preorder := by
  induction n using controlled_induction with
  | h n ih =>
    have hbelow := (flatMap_subperm ih).trans n.inside_controlled
    rw [reached_eq]
    obtain ⟨l, cs⟩ := n
    rw [preorder_node]
    exact (List.subperm_cons _).mpr hbelow

/-- An expression that adds to the count. -/
def isIf (n : Node) : Bool := n.kind == "if_expression"

theorem isIf_iff : n.isIf = true ↔ n.kind = "if_expression" := beq_iff_eq

/-- The stack counts what a plain recursion finds. -/
theorem decisions_eq_countP (n : Node) : n.decisions = n.reached.countP isIf := by
  induction n using controlled_induction with
  | h n ih =>
    have hbelow : n.controlled.map decisions = n.controlled.map (List.countP isIf ∘ reached) :=
      List.map_congr_left ih
    rw [decisions_eq, reached_eq, List.countP_cons, List.countP_flatMap, hbelow]
    simp only [isIf_iff]
    rfl

theorem decisions_of_if (h : n.kind = "if_expression") :
    n.decisions = 1 + decisionsOf (n.child? "consequence") + decisionsOf n.elseTarget? := by
  rw [decisions_eq, controlled, if_pos h, if_pos h, branches]
  cases n.child? "consequence" <;> cases n.elseTarget? <;> simp [decisionsOf] <;> omega

theorem decisions_of_ne_if (h : n.kind ≠ "if_expression") :
    n.decisions = (n.parts.map decisions).sum := by
  rw [decisions_eq, controlled, if_neg h, if_neg h, Nat.add_zero]
  rfl

theorem preorder_of_reaches (h : n.Reaches m) : m ∈ n.preorder :=
  n.reached_subperm.subset (mem_reached_iff.mpr h)

/-- The places of the `if` expressions that control comes to, without repetition. -/
theorem encard_reachable_ifs (tree : SyntaxTree) (h : n ∈ tree.root.preorder) :
    {i | ∃ m, n.Reaches m ∧ m.kind = "if_expression" ∧ m.label.index = i}.encard =
      n.decisions := by
  have hnodup := tree.nodup_index (n.reached_subperm.trans (preorder_sublist h).subperm)
  have hifs : ((n.reached.filter isIf).map fun m => m.label.index).Nodup :=
    hnodup.sublist (List.filter_sublist.map _)
  have hset : {i | ∃ m, n.Reaches m ∧ m.kind = "if_expression" ∧ m.label.index = i} =
      ((n.reached.filter isIf).map fun m => m.label.index).toFinset := by
    ext i
    simp only [Set.mem_ofPred_eq, List.coe_toFinset, List.mem_map, List.mem_filter,
      mem_reached_iff, isIf_iff, and_assoc]
  rw [hset, Set.encard_coe_eq_coe_finsetCard, List.toFinset_card_of_nodup hifs, List.length_map,
    ← List.countP_eq_length_filter, decisions_eq_countP]

/-- The count of an expression in a tree is the number of places below it that hold an `if`
to which control can come. It follows the rules of the language: an `if` counts one, its block
and what follows its `else`, any other expression what its parts do. -/
theorem decisions_count_reachable_ifs (tree : SyntaxTree) {body : Node}
    (h : body ∈ tree.root.preorder) :
    {i | ∃ n, body.Reaches n ∧ n.kind = "if_expression" ∧ n.label.index = i}.encard =
        decisionsOf (some body) ∧
      (∀ n, body.Reaches n → n ∈ body.preorder) ∧
      decisionsOf (some body) ≤ body.preorder.countP (fun n => n.kind == "if_expression") ∧
      (body.kind = "if_expression" → decisionsOf (some body) =
        1 + decisionsOf (body.child? "consequence") + decisionsOf body.elseTarget?) ∧
      (body.kind ≠ "if_expression" →
        decisionsOf (some body) = (body.parts.map fun c => decisionsOf (some c)).sum) := by
  refine ⟨encard_reachable_ifs tree h, fun n hn => preorder_of_reaches hn, ?_,
    decisions_of_if, decisions_of_ne_if⟩
  rw [decisionsOf, decisions_eq_countP]
  exact body.reached_subperm.countP_le isIf

/-- `if a {}`, where `a` is any name. -/
def plainIf (i : Nat) (field name : String) : Node :=
  .phrase i "if_expression" field ("if " ++ name ++ " \x7b\x7d")
    [.token (i + 1) "if", .phrase (i + 2) "identifier" "condition" name [],
      .phrase (i + 3) "block" "consequence" "\x7b\x7d" [.token (i + 4) "\x7b", .token (i + 5) "\x7d"]]

/-- `{ if if a {} { x = if b {}; } else if c {} }`. -/
def forkedBody : Node :=
  .phrase 1 "block" "body" "\x7b if if a \x7b\x7d \x7b x = if b \x7b\x7d; \x7d else if c \x7b\x7d \x7d"
    [.token 2 "\x7b",
      .phrase 3 "if_expression" "" "if if a \x7b\x7d \x7b x = if b \x7b\x7d; \x7d else if c \x7b\x7d"
        [.token 4 "if", plainIf 5 "condition" "a",
          .phrase 11 "block" "consequence" "\x7b x = if b \x7b\x7d; \x7d"
            [.token 12 "\x7b",
              .phrase 13 "expression_statement" "" "x = if b \x7b\x7d;"
                [.phrase 14 "assignment_expression" "" "x = if b \x7b\x7d"
                  [.phrase 15 "identifier" "left" "x" [], .token 16 "=", plainIf 17 "right" "b"],
                  .token 23 ";"],
              .token 24 "\x7d"],
          .phrase 25 "else_clause" "alternative" "else if c \x7b\x7d"
            [.token 26 "else", plainIf 27 "" "c"]],
      .token 33 "\x7d"]

def forkedFn : SyntaxTree where
  root := .phrase 0 "function_item" "" "" [forkedBody]
  distinct := by decide +kernel

/-- The `if` in the condition is no decision point. -/
theorem decisions_of_forkedBody :
    forkedBody ∈ forkedFn.root.preorder ∧
      {i | ∃ n, forkedBody.Reaches n ∧ n.kind = "if_expression" ∧ n.label.index = i}.encard = 3 ∧
      forkedBody.preorder.countP (fun n => n.kind == "if_expression") = 4 := by
  have hmem : forkedBody ∈ forkedFn.root.preorder :=
    mem_preorder_of_mem_children List.mem_cons_self _ (mem_preorder_self _)
  have hcount : decisionsOf (some forkedBody) = 3 := by decide +kernel
  obtain ⟨hifs, _⟩ := decisions_count_reachable_ifs forkedFn hmem
  rw [hcount] at hifs
  exact ⟨hmem, hifs, by decide +kernel⟩

end Node

end RustMetrics
