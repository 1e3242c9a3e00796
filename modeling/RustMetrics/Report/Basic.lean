import RustMetrics.Failure
import RustMetrics.Graph.Basic
import RustMetrics.Symbol.Tree
import RustMetrics.Text.Digit

/-! What is found out about a file: its symbols, its graph, or both. -/

namespace RustMetrics

structure Report (V : Type) where
  path : String
  tree : Option SymbolTree := none
  graph : Option (Graph V) := none

namespace Report

variable {V : Type}

/-- The largest of a first number and some more. -/
def largest (first : Int) (more : List Int) : Int := more.foldl max first

/-- The number that a limit is compared with: the graph's if there is one, else the
largest of the symbols. A file without symbols counts zero. -/
def worst (r : Report V) : Int :=
  match r.graph, r.tree with
  | some g, _ => g.complexity
  | none, none => 0
  | none, some t =>
    if t.children.isEmpty then 0
    else match t.leaves.map SymbolTree.complexity with
      | [] => 0
      | first :: more => largest first more

/-- The reports above a limit; without a limit there are none. -/
def exceeding (limit : Option Int) (reports : List (Report V)) : List (Report V) :=
  match limit with
  | none => []
  | some n => reports.filter fun r => n < r.worst

/-- A number written out. -/
def written (n : Int) : Except Failure String :=
  if Text.isWritable n then .ok (toString n) else .error .tooManyDigits

/-- A text, provided that all numbers in it can be written out. -/
def withNumbers (numbers : List Int) (text : String) : Except Failure String :=
  if numbers.all Text.isWritable then .ok text else .error .tooManyDigits

end Report

end RustMetrics
