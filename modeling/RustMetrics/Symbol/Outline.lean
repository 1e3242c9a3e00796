import RustMetrics.Decision
import RustMetrics.Import.Reading
import RustMetrics.Symbol.Tree

/-! The outline of a file: its functions and `impl` blocks in source order, each
`impl` with its methods. An `impl` is named by the first segment of its type. -/

namespace RustMetrics

namespace Node

/-- Kinds of type whose own text is a name. -/
def isTypeName (kind : String) : Bool :=
  kind == "type_identifier" || kind == "primitive_type" || kind == "identifier" ||
    kind == "self" || kind == "crate" || kind == "super"

def isScoped (kind : String) : Bool :=
  kind == "scoped_type_identifier" || kind == "scoped_identifier"

/-- The node one step nearer to the first segment of a type: the type that a
generic type applies, or the path of a scoped one. -/
def typeHead? (n : Node) : Option Node :=
  if n.kind = "generic_type" then n.child? "type"
  else if isScoped n.kind then (n.child? "path").or (n.child? "name")
  else none

theorem size_typeHead?_lt {n c : Node} (h : n.typeHead? = some c) : c.size < n.size := by
  unfold typeHead? at h
  split at h
  · exact size_child?_lt h
  · split at h
    · cases hp : n.child? "path" with
      | none => rw [hp, Option.none_or] at h; exact size_child?_lt h
      | some p =>
        rw [hp, Option.some_or] at h
        cases h
        exact size_child?_lt hp
    · cases h

/-- The first name in a type, if it starts with one. -/
def leadingName (n : Node) : Except Failure (Option String) :=
  if isTypeName n.kind then (decoded n.text).map some
  else match _h : n.typeHead? with
    | none => .ok none
    | some c => leadingName c
termination_by n.size
decreasing_by exact size_typeHead?_lt _h

/-- The name of an `impl`. `path` is the file to blame. -/
def implName (path : String) (n : Node) : Except Failure String := do
  match n.child? "type" with
  | none => .error (.unnamedImpl path (n.label.start.row + 1) "")
  | some type =>
    match ← leadingName type with
    | some name => return name
    | none =>
      let typeText ← decoded type.text
      .error (.unnamedImpl path (n.label.start.row + 1) typeText)

/-- The symbol of a function. -/
def symbol (kind : SymbolKind) (n : Node) : Except Failure SymbolTree := do
  let name ← requiredText (n.child? "name")
  return .node name kind (decisionsOf (n.child? "body")) []

/-- The symbol of an item; only functions and `impl` blocks have one. -/
def symbol? (path : String) (n : Node) : Except Failure (Option SymbolTree) := do
  match n.itemKind with
  | .fn => return some (← n.symbol .fn)
  | .impl =>
    let name ← n.implName path
    let methods ← n.methods.mapM (symbol .method)
    return some (.node name .impl 0 methods)
  | _ => return none

/-- The outline of a file under a label. -/
def outline (path label : String) (root : Node) : Except Failure SymbolTree := do
  let symbols ← root.items.mapM (symbol? path)
  return .node label .file 0 (symbols.filterMap id)

end Node

end RustMetrics
