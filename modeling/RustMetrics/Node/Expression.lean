import RustMetrics.Node.Item

/-! Expressions that are looked into: arrays, assignments, blocks, `break` and `if`.
Any other expression is closed, whatever it contains. The parts of an
expression are disjoint subtrees strictly below it, so a walk along parts ends
and meets no node twice. -/

namespace RustMetrics.Node

/-- The statements of a block. An expression statement stands for its expression
and vanishes if it has none. -/
def statements (n : Node) : List Node :=
  n.phrases.filterMap fun c =>
    if isAside c.kind || c.kind == "label" then none
    else if c.kind == "expression_statement" then c.phrases.head?
    else some c

/-- The block or `if` after `else`. -/
def elseTarget? (n : Node) : Option Node :=
  (n.child? "alternative").bind fun alternative => alternative.phrases.head?

/-- The ways an `if` can go: its block, then what follows `else`. -/
def branches (n : Node) : List Node :=
  (n.child? "consequence").toList ++ n.elseTarget?.toList

/-- The two sides of an assignment. -/
def sides (n : Node) : List Node := (n.child? "left").toList ++ (n.child? "right").toList

/-- Whether a kind of expression is looked into. -/
def isOpen (kind : String) : Bool :=
  kind == "array_expression" || kind == "assignment_expression" ||
    kind == "compound_assignment_expr" || kind == "block" || kind == "break_expression" ||
    kind == "if_expression"

/-- The parts of an expression, in source order. -/
def parts (n : Node) : List Node :=
  match n.kind with
  | "array_expression" => n.phrases.filter fun c => c.kind != "attribute_item"
  | "assignment_expression" => n.sides
  | "compound_assignment_expr" => n.sides
  | "block" => n.statements
  | "break_expression" => n.phrases.filter fun c => c.kind != "label"
  | "if_expression" => (n.child? "condition").toList ++ n.branches
  | _ => []

theorem sizes_head?_le (cs : List Node) : sizes cs.head?.toList ≤ sizes cs := by
  cases cs with
  | nil => simp
  | cons c cs => simp

theorem sizes_filterMap_le (f : Node → Option Node) (cs : List Node)
    (h : ∀ c, sizes (f c).toList ≤ c.size) : sizes (cs.filterMap f) ≤ sizes cs := by
  induction cs with
  | nil => simp
  | cons c cs ih =>
    have hc := h c
    cases hf : f c with
    | none => simp only [List.filterMap_cons, hf, sizes_cons]; omega
    | some d =>
      simp only [hf, Option.toList_some, sizes_cons, sizes_nil] at hc
      simp only [List.filterMap_cons, hf, sizes_cons]
      omega

@[simp] theorem heldAs_nil (f : String) : heldAs [] f = none := rfl

theorem heldAs_cons_self (c : Node) (cs : List Node) : heldAs (c :: cs) c.label.field = some c := by
  simp [heldAs]

theorem heldAs_cons_of_ne {c : Node} {f : String} (cs : List Node) (h : c.label.field ≠ f) :
    heldAs (c :: cs) f = heldAs cs f := by
  simp [heldAs, h]

/-- Looking fields up in a longer list of children adds at most its first child. -/
theorem sizes_heldAs_cons_le (c : Node) (cs : List Node) (fields : List String)
    (h : fields.Nodup) :
    sizes (fields.filterMap (heldAs (c :: cs))) ≤
      (if c.label.field ∈ fields then c.size else 0) +
        sizes ((fields.filter (· != c.label.field)).filterMap (heldAs cs)) := by
  induction fields with
  | nil => simp
  | cons f fs ih =>
    obtain ⟨hf, hfs⟩ := List.nodup_cons.mp h
    have ih := ih hfs
    by_cases he : c.label.field = f
    · subst he
      simp only [hf, if_false] at ih
      rw [List.filterMap_cons_some (heldAs_cons_self c cs)]
      simp only [sizes_cons, List.mem_cons, true_or, if_true, List.filter_cons,
        bne_self_eq_false, Bool.false_eq_true, if_false]
      omega
    · have hb : (f != c.label.field) = true := by simpa [bne_iff_ne] using Ne.symm he
      simp only [List.mem_cons, he, false_or, List.filter_cons, hb, if_true]
      cases hg : heldAs cs f with
      | none =>
        rw [List.filterMap_cons_none hg,
          List.filterMap_cons_none (by rw [heldAs_cons_of_ne cs he, hg])]
        exact ih
      | some d =>
        rw [List.filterMap_cons_some hg,
          List.filterMap_cons_some (b := d) (by rw [heldAs_cons_of_ne cs he, hg])]
        simp only [sizes_cons]
        omega

/-- Children held under different fields are different children. -/
theorem sizes_heldAs_le (cs : List Node) (fields : List String) (h : fields.Nodup) :
    sizes (fields.filterMap (heldAs cs)) ≤ sizes cs := by
  induction cs generalizing fields with
  | nil =>
    have : fields.filterMap (heldAs []) = [] := by
      induction fields with
      | nil => rfl
      | cons f fs ih =>
        rw [List.filterMap_cons_none (heldAs_nil f)]
        exact ih (List.nodup_cons.mp h).2
    exact Nat.le_of_eq (congrArg sizes this)
  | cons c cs ih =>
    have hle := sizes_heldAs_cons_le c cs fields h
    have ih := ih (fields.filter (· != c.label.field)) (h.filter _)
    simp only [sizes_cons]
    split at hle <;> omega

theorem sizes_statements_lt (n : Node) : sizes n.statements < n.size := by
  refine Nat.lt_of_le_of_lt (sizes_filterMap_le _ _ ?_) (sizes_phrases_lt n)
  intro c
  split
  · simp
  · split
    · exact Nat.le_trans (sizes_head?_le _) (Nat.le_of_lt (sizes_phrases_lt c))
    · simp

theorem sizes_elseTarget?_le (n : Node) :
    sizes n.elseTarget?.toList ≤ sizes (n.child? "alternative").toList := by
  unfold elseTarget?
  cases n.child? "alternative" with
  | none => simp
  | some a =>
    simp only [Option.bind_some, Option.toList_some, sizes_cons, sizes_nil, Nat.add_zero]
    exact Nat.le_trans (sizes_head?_le _) (Nat.le_of_lt (sizes_phrases_lt a))

theorem sizes_sides_lt (n : Node) : sizes n.sides < n.size := by
  have h := sizes_heldAs_le n.children ["left", "right"] (by decide)
  rw [size_eq]
  simp only [sides, child?, sizes_append]
  cases hl : heldAs n.children "left" <;> cases hr : heldAs n.children "right" <;>
    simp [hl, hr] at h ⊢ <;> omega

theorem sizes_condition_branches_lt (n : Node) :
    sizes ((n.child? "condition").toList ++ n.branches) < n.size := by
  have h := sizes_heldAs_le n.children ["condition", "consequence", "alternative"] (by decide)
  have he := sizes_elseTarget?_le n
  rw [size_eq]
  simp only [branches, sizes_append, child?] at *
  cases hc : heldAs n.children "condition" <;>
    cases hq : heldAs n.children "consequence" <;>
    cases ha : heldAs n.children "alternative" <;>
    simp [hc, hq, ha] at h he ⊢ <;> omega

theorem sizes_branches_lt (n : Node) : sizes n.branches < n.size := by
  have := sizes_condition_branches_lt n
  simp only [sizes_append] at this
  omega

/-- The parts of an expression are together smaller than it. -/
theorem sizes_parts_lt (n : Node) : sizes n.parts < n.size := by
  have filtered : ∀ p, sizes (n.phrases.filter p) < n.size := fun p =>
    Nat.lt_of_le_of_lt (sizes_filter_le p _) (sizes_phrases_lt n)
  unfold parts
  split
  · exact filtered _
  · exact sizes_sides_lt n
  · exact sizes_sides_lt n
  · exact sizes_statements_lt n
  · exact filtered _
  · exact sizes_condition_branches_lt n
  · simpa using size_pos n

end RustMetrics.Node
