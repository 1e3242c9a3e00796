import RustMetrics.Node.Basic

/-! Items: what a file, a module body or an `impl` body declares. Attributes,
a shebang line and stray semicolons stand beside items and are none. -/

namespace RustMetrics

inductive ItemKind where
  | externCrate
  | use
  | static
  | const
  | fn
  | mod
  | foreignMod
  | type
  | struct
  | enum
  | union
  | trait
  | impl
  | macroCall
  | other
  deriving DecidableEq, Repr

namespace ItemKind

def name : ItemKind → String
  | externCrate => "ExternCrate"
  | use => "Use"
  | static => "Static"
  | const => "Const"
  | fn => "Fn"
  | mod => "Mod"
  | foreignMod => "ForeignMod"
  | type => "Type"
  | struct => "Struct"
  | enum => "Enum"
  | union => "Union"
  | trait => "Trait"
  | impl => "Impl"
  | macroCall => "Macro"
  | other => "Other"

def ofNodeKind : String → ItemKind
  | "extern_crate_declaration" => externCrate
  | "use_declaration" => use
  | "static_item" => static
  | "const_item" => const
  | "function_item" => fn
  | "mod_item" => mod
  | "foreign_mod_item" => foreignMod
  | "type_item" => type
  | "struct_item" => struct
  | "enum_item" => enum
  | "union_item" => union
  | "trait_item" => trait
  | "impl_item" => impl
  | "macro_invocation" => macroCall
  | "macro_definition" => macroCall
  | _ => other

/-- Macros apart, a known kind of item is that of one kind of node. -/
theorem eq_of_ofNodeKind_eq {a b : String} (h : ofNodeKind a = ofNodeKind b)
    (hb : ofNodeKind b ∉ [macroCall, other]) : a = b := by
  generalize hk : ofNodeKind b = k at h hb
  fun_cases ofNodeKind b
  all_goals
    rw [ofNodeKind] at hk
    · subst hk
      revert h hb
      fun_cases ofNodeKind a <;> simp
    all_goals assumption

end ItemKind

namespace Node

def itemKind (n : Node) : ItemKind := .ofNodeKind n.kind

/-- Kinds of phrases that stand among items or statements and are neither. -/
def isAside (kind : String) : Bool :=
  kind == "attribute_item" || kind == "inner_attribute_item" || kind == "shebang" ||
    kind == "empty_statement"

/-- The items directly below a file or a body. -/
def items (n : Node) : List Node := n.phrases.filter fun c => !isAside c.kind

/-- The items of an item's body; none without a body. -/
def bodyItems (n : Node) : List Node :=
  match n.child? "body" with
  | none => []
  | some body => body.items

/-- The functions among the items of an `impl` body. -/
def methods (n : Node) : List Node := n.bodyItems.filter fun c => c.kind == "function_item"

theorem sizes_items_lt (n : Node) : sizes n.items < n.size :=
  Nat.lt_of_le_of_lt (sizes_filter_le _ _) (sizes_phrases_lt n)

theorem sizes_bodyItems_lt (n : Node) : sizes n.bodyItems < n.size := by
  unfold bodyItems
  split
  · simpa using size_pos n
  · next body h => exact Nat.lt_trans (sizes_items_lt body) (size_child?_lt h)

theorem sizes_methods_lt (n : Node) : sizes n.methods < n.size :=
  Nat.lt_of_le_of_lt (sizes_filter_le _ _) (sizes_bodyItems_lt n)

end Node

end RustMetrics
