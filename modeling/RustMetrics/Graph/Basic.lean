/-! Directed graphs with repeated edges. Vertices are registered on their own: an
edge may mention a vertex that is not registered, and only registered vertices
count. The number of components is set from outside. -/

namespace RustMetrics

structure Edge (V : Type) where
  parent : V
  child : V
  deriving DecidableEq, Repr

/-- `edges` is in the order of insertion; `vertices` has the latest vertex first
and no vertex twice. -/
structure Graph (V : Type) where
  edges : Array (Edge V) := #[]
  root : Option V := none
  components : Int := 0
  vertices : List V := []

namespace Graph

variable {V : Type}

def empty : Graph V := {}

def addEdge (g : Graph V) (parent child : V) : Graph V :=
  { g with edges := g.edges.push ⟨parent, child⟩ }

/-- Registers a vertex that is not registered yet. -/
def register [DecidableEq V] (g : Graph V) (v : V) : Graph V :=
  if v ∈ g.vertices then g else { g with vertices := v :: g.vertices }

/-- Whether registering a vertex would add it. -/
def isNew [DecidableEq V] (g : Graph V) (v : V) : Bool := v ∉ g.vertices

def setRoot [DecidableEq V] (g : Graph V) (v : V) : Graph V :=
  { g.register v with root := some v }

def setComponents (g : Graph V) (n : Int) : Graph V := { g with components := n }

/-- One change to a graph. -/
inductive Change (V : Type) where
  | edge (parent child : V)
  | vertex (v : V)
  | root (v : V)
  | components (n : Int)

def change [DecidableEq V] (g : Graph V) : Change V → Graph V
  | .edge parent child => g.addEdge parent child
  | .vertex v => g.register v
  | .root v => g.setRoot v
  | .components n => g.setComponents n

/-- The graph after a history of changes. -/
def ofChanges [DecidableEq V] (changes : List (Change V)) : Graph V := changes.foldl change empty

def nodeCount (g : Graph V) : Nat := g.vertices.length

def edgeCount (g : Graph V) : Nat := g.edges.size

/-- McCabe's number: edges, less nodes, plus twice the components. It is negative
for an empty file. -/
def complexity (g : Graph V) : Int := g.edgeCount - g.nodeCount + 2 * g.components

def summary (g : Graph V) : String :=
  "Graph(connected_components=" ++ toString g.components ++ ", nodes=" ++ toString g.nodeCount
    ++ ", edges=" ++ toString g.edgeCount ++ ")"

end Graph

end RustMetrics
