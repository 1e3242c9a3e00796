import RustMetrics.Node.Expression

/-! Decision points of a function body: the `if` expressions that control can reach
through blocks, arrays, assignments and `break` values. An `else if` chain of
three clauses has three. Conditions are not looked into.

Expressions that are still to be looked into wait on a stack, the one found last on
top. `decisions_eq` says that their order does not matter: an expression counts as
much as all that it leads to, and one more if it is an `if`. -/

namespace RustMetrics

namespace Node

/-- Where counting goes on below an expression. -/
def controlled (n : Node) : List Node :=
  if n.kind = "if_expression" then n.branches else n.parts

theorem sizes_controlled_lt (n : Node) : sizes n.controlled < n.size := by
  unfold controlled
  split
  · exact sizes_branches_lt n
  · exact sizes_parts_lt n

theorem sizes_reverse (cs : List Node) : sizes cs.reverse = sizes cs := by
  induction cs with
  | nil => rfl
  | cons c cs ih =>
    rw [List.reverse_cons, sizes_append, ih, sizes_cons, sizes_cons, sizes_nil]
    omega

theorem sizes_pushed_lt (n : Node) (rest : List Node) :
    sizes (n.controlled.reverse ++ rest) < sizes (n :: rest) := by
  rw [sizes_append, sizes_reverse, sizes_cons]
  exact Nat.add_lt_add_right (sizes_controlled_lt n) _

/-- A count that goes on with a stack of expressions. -/
def tally (count : Nat) : List Node → Nat
  | [] => count
  | n :: rest =>
    tally (count + if n.kind = "if_expression" then 1 else 0) (n.controlled.reverse ++ rest)
termination_by stack => sizes stack
decreasing_by exact sizes_pushed_lt n rest

/-- The number of decision points from an expression on. -/
def decisions (n : Node) : Nat := tally 0 [n]

theorem tally_append (count : Nat) (stack rest : List Node) :
    tally count (stack ++ rest) = tally (tally count stack) rest := by
  fun_induction tally count stack with
  | case1 count => rfl
  | case2 count n stack ih =>
    rw [List.cons_append, tally, ← List.append_assoc]
    exact ih

theorem tally_add (count more : Nat) (stack : List Node) :
    tally (count + more) stack = tally count stack + more := by
  fun_induction tally count stack with
  | case1 count => rw [tally]
  | case2 count n stack ih =>
    rw [tally, Nat.add_right_comm]
    exact ih

theorem tally_cons (count : Nat) (n : Node) (stack : List Node) :
    tally count (n :: stack) = tally count stack + n.decisions := by
  have hsplit := tally_append count [n] stack
  have hn := tally_add 0 count [n]
  rw [Nat.zero_add] at hn
  rw [List.singleton_append, hn, Nat.add_comm, tally_add] at hsplit
  exact hsplit

theorem tally_reverse (count : Nat) (stack : List Node) :
    tally count stack.reverse = (stack.map decisions).foldr (· + ·) 0 + count := by
  induction stack generalizing count with
  | nil => rw [List.reverse_nil, tally, List.map_nil, List.foldr_nil, Nat.zero_add]
  | cons n stack ih =>
    rw [List.reverse_cons, tally_append, ih, tally_cons, tally, List.map_cons, List.foldr_cons]
    omega

/-- An expression counts as all that it leads to, and one more if it is an `if`. -/
theorem decisions_eq (n : Node) :
    n.decisions = (n.controlled.map decisions).foldr (· + ·) 0 +
      if n.kind = "if_expression" then 1 else 0 := by
  rw [decisions, tally, List.append_nil, tally_reverse, Nat.zero_add]

end Node

/-- A function without a body has none. -/
def decisionsOf : Option Node → Nat
  | none => 0
  | some body => body.decisions

end RustMetrics
