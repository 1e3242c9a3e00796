import RustMetrics.Graph.Basic

/-! A graph in the hands of a caller. The caller changes it, asks for its vertices and may do with
what it is given as it likes. Each set of vertices that is handed out is a copy, which is kept here
beside the graph. -/

namespace RustMetrics

namespace Graph

/-- One call. Copies are counted from zero. -/
inductive Call (V : Type) where
  | change (c : Change V)
  /-- Asks for the vertices. -/
  | vertices
  /-- Empties a set that was handed out. -/
  | clear (copy : Nat)

inductive Answer where
  | nothing
  | isNew (new : Bool)
  | copy (number : Nat)
  deriving DecidableEq, Repr

/-- What a change gives back: registering a vertex tells whether it is new. -/
def answer {V : Type} [DecidableEq V] (g : Graph V) : Change V → Answer
  | .vertex v => .isNew (g.isNew v)
  | _ => .nothing

/-- A graph and the sets of vertices that it has handed out. -/
structure Session (V : Type) where
  graph : Graph V := {}
  copies : List (List V) := []

namespace Session

variable {V : Type}

def new : Session V := {}

variable [DecidableEq V]

def call (s : Session V) : Call V → Answer × Session V
  | .change c => (s.graph.answer c, { s with graph := s.graph.change c })
  | .vertices =>
    (.copy s.copies.length, { s with copies := s.copies ++ [s.graph.vertices] })
  | .clear copy => (.nothing, { s with copies := s.copies.set copy [] })

/-- One call after another. -/
def run (s : Session V) : List (Call V) → Session V
  | [] => s
  | c :: calls => run (s.call c).2 calls

/-- What the calls give back. -/
def answers (s : Session V) : List (Call V) → List Answer
  | [] => []
  | c :: calls => (s.call c).1 :: answers (s.call c).2 calls

end Session

end Graph

end RustMetrics
