import RustMetrics.Report.Basic

/-! Reports as text: a heading and a line for each symbol, or three lines for a
graph, and an empty line after each. -/

namespace RustMetrics

namespace SymbolTree

/-- A path with one more label. Nothing stands before the first one. -/
def pathWith (above label : String) : String :=
  if above.isEmpty then label else above ++ " > " ++ label

/-- The lines of the leaves that are met from a stack of trees, the next one on top. Each tree
comes with the path of labels above it. -/
def linesFrom : List (SymbolTree × String) → Except Failure (List String)
  | [] => .ok []
  | (t, above) :: rest => do
    let here := pathWith above t.label
    if t.children.isEmpty then
      let number ← Report.written t.complexity
      let lines ← linesFrom rest
      return ("[" ++ here ++ "] Complexity => " ++ number) :: lines
    else linesFrom (pushAll (t.children.map (·, here)).reverse rest)
termination_by stack => sizes (stack.map Prod.fst)
decreasing_by
  · rw [List.map_cons, sizes]
    exact Nat.lt_add_of_pos_left t.size_pos
  · exact sizes_pushAll_lt Prod.fst (·, here) (fun _ => rfl) (t, above) rest

/-- The lines of a tree, heading first. -/
def textLines (t : SymbolTree) : Except Failure (List String) := do
  let below ← t.children.mapM fun c => linesFrom [(c, t.label)]
  return t.label :: below.flatten

def render (t : SymbolTree) : Except Failure String :=
  t.textLines.map fun lines => "\n".intercalate lines ++ "\n\n"

end SymbolTree

namespace Graph

variable {V : Type}

def textLines (g : Graph V) (path : String) : List String :=
  ["File: " ++ path, g.summary, "Complexity => " ++ toString g.complexity]

/-- The numbers in the lines of a graph. -/
def textNumbers (g : Graph V) : List Int :=
  [g.components, g.nodeCount, g.edgeCount, g.complexity]

def render (g : Graph V) (path : String) : Except Failure String :=
  Report.withNumbers g.textNumbers ("\n".intercalate (g.textLines path) ++ "\n\n")

end Graph

namespace Report

variable {V : Type}

def render (r : Report V) : Except Failure String := do
  let tree ← r.tree.elim (.ok "") SymbolTree.render
  let graph ← r.graph.elim (.ok "") fun g => g.render r.path
  return tree ++ graph

/-- The text of some reports, if it can be written. -/
def printedText (reports : List (Report V)) : Except Failure String :=
  (reports.mapM render).map String.join

end Report

end RustMetrics
