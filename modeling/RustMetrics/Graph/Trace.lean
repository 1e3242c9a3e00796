import RustMetrics.Graph.Basic
import RustMetrics.Graph.Site

/-! The graph of a file by plain recursion: visiting a place adds its edge and, if
its vertex is new, registers it and visits where it leads, from left to right. -/

namespace RustMetrics.Graph

/-- The graph after a place was visited from `parent`. -/
def visit (g : Graph Fingerprint) (parent : Fingerprint) (site : Site) :
    Except Failure (Graph Fingerprint) :=
  match _hf : site.fingerprint? with
  | none => .error (.absentNode .children)
  | some f =>
    if f ∈ g.vertices then .ok (g.addEdge parent f)
    else match _he : site.expand with
      | .error e => .error e
      | .ok sites =>
        sites.attach.foldlM (fun g s => visit g f s.1) ((g.addEdge parent f).register f)
termination_by site.size
decreasing_by
  have h := Site.sizes_expand_lt _hf _he
  have hm := Site.size_le_sizes_of_mem s.2
  omega

/-- The graph of a file: all its items visited from the file's own vertex. -/
def traced (root : Node) : Except Failure (Graph Fingerprint) := do
  let sites ← root.items.mapM Site.ofItem
  sites.foldlM (fun g s => g.visit root.fingerprint s)
    ((empty.setRoot root.fingerprint).setComponents root.items.length)

end RustMetrics.Graph
