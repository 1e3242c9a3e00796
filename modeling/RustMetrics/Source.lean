import RustMetrics.Failure
import RustMetrics.Node.Listing
import RustMetrics.Text.Blank

/-! A source file with the tree that the parser made of it. The parser always makes
a tree; it marks the file as broken if the tree has a part that it could not
read or had to make up. -/

namespace RustMetrics

structure Source where
  path : String
  bytes : ByteArray
  tree : SyntaxTree
  broken : Bool

namespace Source

/-- The content as text, whatever its bytes. -/
def text (s : Source) : String := Utf8.lossy s.bytes.toList

def root (s : Source) : Node := s.tree.root

end Source

namespace Node

def isFaulty (n : Node) : Bool := n.label.error || n.label.missing

/-- The first faulty node of the trees that wait on a stack, the next one on top. The children of
a node that is not faulty are put in its place. -/
def firstFaulty? : List Node → Option Node
  | [] => none
  | n :: rest => if n.isFaulty then some n else firstFaulty? (n.children ++ rest)
termination_by stack => sizes stack
decreasing_by
  rw [sizes_append, sizes_cons, size_eq]
  omega

/-- What is wrong at a faulty node: what should be there, or what should not. -/
def faultText (n : Node) : String :=
  if n.label.missing then "expected " ++ Text.quoted n.kind
  else match Text.firstLine? (Utf8.lossy n.text) with
    | some line => "unexpected " ++ Text.quoted line
    | none => "syntax error"

end Node

namespace Source

/-- Why a broken file is refused: its first faulty node. -/
def failure (s : Source) : Failure :=
  match Node.firstFaulty? [s.root] with
  | none => .rejected s.path none none "syntax error"
  | some n =>
    .rejected s.path (some (n.label.start.row + 1)) (some (n.label.start.column + 1)) n.faultText

/-- Only a file that is not broken is analysed. -/
def check (s : Source) : Except Failure Source :=
  if s.broken then .error s.failure else .ok s

end Source

end RustMetrics
