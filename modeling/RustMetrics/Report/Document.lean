import RustMetrics.Json.Printer
import RustMetrics.Report.Basic

/-! Reports as a JSON document. -/

namespace RustMetrics

namespace SymbolTree

mutual

/-- A symbol and what is below it; a symbol without children has no such field. -/
def document : SymbolTree → Json
  | node n k c [] =>
    .obj [("name", .str n), ("kind", .str k.name), ("complexity", .int c)]
  | node n k c (t :: ts) =>
    .obj [("name", .str n), ("kind", .str k.name), ("complexity", .int c),
      ("children", .arr (documents (t :: ts)))]

def documents : List SymbolTree → List Json
  | [] => []
  | t :: ts => document t :: documents ts

end

/-- A symbol in the flat list of a report, with the labels that lead to it. -/
structure Entry where
  path : List String
  kind : SymbolKind
  name : String
  complexity : Int
  deriving DecidableEq, Repr

def Entry.document (e : Entry) : Json :=
  .obj [("path", .str (" > ".intercalate e.path)), ("kind", .str e.kind.name),
    ("name", .str e.name), ("complexity", .int e.complexity), ("mccabe", .int (e.complexity + 1))]

/-- A tree that waits to be visited, with the labels above it. -/
structure Visit where
  tree : SymbolTree
  above : List String
  isRoot : Bool

/-- The entries of the leaves that are met from a stack of visits, the next one on top. The root
itself is no entry, even if it has no children. -/
def entriesFrom : List Visit → List Entry
  | [] => []
  | v :: rest =>
    let here := v.above ++ [v.tree.label]
    let below : List Visit := v.tree.children.map (⟨·, here, false⟩)
    let found := entriesFrom (pushAll below.reverse rest)
    if v.tree.children.isEmpty && !v.isRoot then
      ⟨here, v.tree.kind, v.tree.name, v.tree.complexity⟩ :: found
    else found
termination_by stack => sizes (stack.map Visit.tree)
decreasing_by exact sizes_pushAll_lt Visit.tree (⟨·, here, false⟩) (fun _ => rfl) v rest

/-- The leaves below the root of a tree. -/
def entries (t : SymbolTree) : List Entry := entriesFrom [⟨t, [], true⟩]

end SymbolTree

namespace Graph

variable {V : Type}

def document (g : Graph V) : Json :=
  .obj [("connected_components", .int g.components), ("nodes", .int g.nodeCount),
    ("edges", .int g.edgeCount), ("complexity", .int g.complexity)]

end Graph

namespace Report

variable {V : Type}

def treeFields (t : SymbolTree) : List (String × Json) :=
  [("tree", t.document), ("symbols", .arr (t.entries.map SymbolTree.Entry.document)),
    ("total_complexity", .int t.total)]

def document (r : Report V) : Json :=
  .obj (("path", .str r.path) :: (r.tree.map treeFields).getD []
    ++ (r.graph.map fun g => [("graph", g.document)]).getD [])

def documentAll (reports : List (Report V)) : Json :=
  .obj [("summary", .obj [("files", .int reports.length)]),
    ("files", .arr (reports.map document))]

def json (reports : List (Report V)) : String := (documentAll reports).render

/-- The JSON text of some reports, if it can be written. -/
def printedJson (reports : List (Report V)) : Except Failure String :=
  withNumbers (documentAll reports).numbers (json reports)

end Report

end RustMetrics
