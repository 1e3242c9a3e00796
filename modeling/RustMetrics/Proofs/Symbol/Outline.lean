import Mathlib.Data.List.Forall2
import RustMetrics.Proofs.Except
import RustMetrics.Proofs.Fingerprint.Shape
import RustMetrics.Proofs.Node.Parsed
import RustMetrics.Symbol.Outline

/-! When a file has an outline, what it is, and what goes wrong otherwise. An outline names
functions, `impl` blocks and methods, and each name can fail for reasons of its own: a
function without a name, a type that starts with none, bytes that are not UTF-8. `Called`
says what something is called and `Fails` why it has no name; one of the two holds of
everything that is named, and an outline fails as the first thing in source order that does.
In a tree that the parser made, a type that can be read starts with a name that can be read, if
with any; so an `impl` without a name is always blamed on the whole type. -/

namespace RustMetrics

namespace Node

variable {n c m : Node} {path label : String} {e : Failure}

/-- One step towards the first segment of a type. -/
inductive Sheds : Node → Node → Prop
  | applied {n c : Node} : n.kind = "generic_type" → n.child? "type" = some c → Sheds n c
  | path {n c : Node} : isScoped n.kind = true → n.child? "path" = some c → Sheds n c
  | name {n c : Node} :
      isScoped n.kind = true → n.child? "path" = none → n.child? "name" = some c → Sheds n c

/-- The first segment of a type is a node that is a name. -/
inductive StartsWith : Node → Node → Prop
  | here {n : Node} : isTypeName n.kind = true → StartsWith n n
  | step {n c m : Node} : n.Sheds c → StartsWith c m → StartsWith n m

/-- A function is called what its name says, an `impl` what its type starts with. -/
inductive Called : Node → String → Prop
  | function {n c : Node} {name : String} : n.kind = "function_item" →
      n.child? "name" = some c → c.text = Utf8.encode name → Called n name
  | impl {n type m : Node} {name : String} : n.kind = "impl_item" →
      n.child? "type" = some type → type.StartsWith m → m.text = Utf8.encode name →
      Called n name

/-- Why a function or an `impl` has no name. Only a type whose own text can be read is quoted,
and only if it leads to no name: a name that cannot be read is a failure of its own. -/
inductive Fails (path : String) : Node → Failure → Prop
  | nameless {n : Node} : n.kind = "function_item" → n.child? "name" = none →
      Fails path n (.absentNode .text)
  | unreadable {n c : Node} {e : Utf8.Error} : n.kind = "function_item" →
      n.child? "name" = some c → Utf8.decode c.text = .error e → Fails path n (.undecodable e)
  | typeless {n : Node} : n.kind = "impl_item" → n.child? "type" = none →
      Fails path n (.unnamedImpl path (n.label.start.row + 1) "")
  | unresolved {n type : Node} {text : String} : n.kind = "impl_item" →
      n.child? "type" = some type → (∀ m, ¬ type.StartsWith m) →
      type.text = Utf8.encode text →
      Fails path n (.unnamedImpl path (n.label.start.row + 1) text)
  | unreadableType {n type : Node} {e : Utf8.Error} : n.kind = "impl_item" →
      n.child? "type" = some type → (∀ m, ¬ type.StartsWith m) →
      Utf8.decode type.text = .error e → Fails path n (.undecodable e)
  | unreadableStart {n type m : Node} {e : Utf8.Error} : n.kind = "impl_item" →
      n.child? "type" = some type → type.StartsWith m → Utf8.decode m.text = .error e →
      Fails path n (.undecodable e)

/-- The text that an `impl` without a name is reported with. -/
def TypeReads (n : Node) (text : String) : Prop :=
  match n.child? "type" with
  | none => text = ""
  | some type => type.text = Utf8.encode text

/-- Whether an item has a symbol. -/
def isDeclared (n : Node) : Bool := n.kind == "function_item" || n.kind == "impl_item"

/-- The functions and `impl` blocks directly below a file. -/
def declarations (n : Node) : List Node := n.phrases.filter isDeclared

/-- The functions directly below the body of an `impl`. -/
def bodyFunctions (n : Node) : List Node :=
  (n.child? "body").toList.flatMap fun body =>
    body.phrases.filter fun c => c.kind == "function_item"

/-- What of a declaration an outline names, in source order: an `impl` comes before its
methods. -/
def named (n : Node) : List Node := if n.kind = "impl_item" then n :: n.bodyFunctions else [n]

/-- A method and its symbol. -/
def DepictsMethod (n : Node) (t : SymbolTree) : Prop :=
  ∃ name, n.Called name ∧ t = .node name .method (decisionsOf (n.child? "body")) []

/-- An item and its symbol. Functions and methods are leaves that count the decisions of their
bodies; an `impl` holds its methods in source order. -/
inductive Depicts : Node → SymbolTree → Prop
  | function {n : Node} {name : String} : n.kind = "function_item" → n.Called name →
      Depicts n (.node name .fn (decisionsOf (n.child? "body")) [])
  | impl {n : Node} {name : String} {ts : List SymbolTree} : n.kind = "impl_item" →
      n.Called name → List.Forall₂ DepictsMethod n.bodyFunctions ts →
      Depicts n (.node name .impl 0 ts)

/-! ### The first segment of a type -/

theorem typeHead?_eq_some_iff : n.typeHead? = some c ↔ n.Sheds c := by
  unfold typeHead?
  by_cases hg : n.kind = "generic_type"
  · rw [if_pos hg]
    constructor
    · exact .applied hg
    · rintro (⟨_, hc⟩ | ⟨hs, _⟩ | ⟨hs, _, _⟩)
      · exact hc
      all_goals
        rw [hg] at hs
        cases hs
  · rw [if_neg hg]
    by_cases hs : isScoped n.kind = true
    · rw [if_pos hs, Option.or_eq_some_iff]
      constructor
      · rintro (hc | ⟨hp, hc⟩)
        · exact .path hs hc
        · exact .name hs hp hc
      · rintro (⟨hk, _⟩ | ⟨_, hc⟩ | ⟨_, hp, hc⟩)
        · exact absurd hk hg
        · exact .inl hc
        · exact .inr ⟨hp, hc⟩
    · rw [if_neg hs]
      constructor
      · rintro ⟨⟩
      · rintro (⟨hk, _⟩ | ⟨hk, _⟩ | ⟨hk, _, _⟩)
        · exact absurd hk hg
        all_goals exact absurd hk hs

theorem Sheds.isTypeName_eq_false (h : n.Sheds c) : isTypeName n.kind = false := by
  have hkind : n.kind = "generic_type" ∨ isScoped n.kind = true := by
    cases h with
    | applied hk _ => exact .inl hk
    | path hk _ | name hk _ _ => exact .inr hk
  rcases hkind with hk | hk
  · rw [hk]
    rfl
  · rcases (by simpa [isScoped] using hk :
      n.kind = "scoped_type_identifier" ∨ n.kind = "scoped_identifier") with hk | hk <;>
    · rw [hk]
      rfl

theorem leadingName_of_isTypeName (h : isTypeName n.kind = true) :
    leadingName n = (decoded n.text).map some := by
  rw [leadingName, if_pos h]

theorem leadingName_of_sheds (h : n.Sheds c) : leadingName n = leadingName c := by
  have hhead := typeHead?_eq_some_iff.mpr h
  rw [leadingName, if_neg (by simp [h.isTypeName_eq_false])]
  split
  · next hnone => rw [hhead] at hnone; cases hnone
  · next d hd =>
    rw [hhead] at hd
    cases hd
    rfl

theorem StartsWith.leadingName_eq (h : n.StartsWith m) :
    leadingName n = (decoded m.text).map some := by
  induction h with
  | here hk => exact leadingName_of_isTypeName hk
  | step hc _ ih => rw [leadingName_of_sheds hc, ih]

theorem leadingName_of_not_startsWith (h : ∀ m, ¬ n.StartsWith m) : leadingName n = .ok none := by
  fun_induction leadingName n with
  | case1 n hk => exact absurd (.here hk) (h n)
  | case2 n hk hc => rfl
  | case3 n hk c hc ih =>
    exact ih fun m hm => h m (.step (typeHead?_eq_some_iff.mp hc) hm)

theorem Sheds.mem_children (h : n.Sheds c) : c ∈ n.children := by
  cases h with
  | applied _ hc | path _ hc | name _ _ hc => exact child?_mem hc

theorem StartsWith.readable {root : Node} (h : n.StartsWith m) (hb : root.ReadableBelow)
    (hn : n ∈ root.preorder) (hr : n.Readable) : m.Readable := by
  induction h with
  | here _ => exact hr
  | step hc _ ih =>
    exact ih (mem_preorder_of_mem_children hc.mem_children _ hn) (hb _ hn hr _ hc.mem_children)

/-! ### Names -/

theorem requiredText_eq_ok_iff {name : String} (hk : n.kind = "function_item") :
    requiredText (n.child? "name") = .ok name ↔ n.Called name := by
  constructor
  · intro h
    cases hc : n.child? "name" with
    | none => rw [hc] at h; cases h
    | some c =>
      rw [hc] at h
      exact .function hk hc (decoded_eq_ok_iff.mp h)
  · rintro (⟨_, hc, ht⟩ | ⟨hi, _, _, _⟩)
    · rw [hc]
      exact decoded_eq_ok_iff.mpr ht
    · exact absurd (hk.symm.trans hi) (by decide)

theorem requiredText_eq_error_iff (hk : n.kind = "function_item") :
    requiredText (n.child? "name") = .error e ↔ n.Fails path e := by
  constructor
  · intro h
    cases hc : n.child? "name" with
    | none =>
      rw [hc] at h
      cases h
      exact .nameless hk hc
    | some c =>
      rw [hc] at h
      obtain ⟨e, he, rfl⟩ := decoded_eq_error_iff.mp h
      exact .unreadable hk hc he
  · intro h
    cases h with
    | nameless _ hc => rw [hc]; rfl
    | unreadable _ hc he =>
      rw [hc]
      exact decoded_eq_error_iff.mpr ⟨_, he, rfl⟩
    | typeless hi | unresolved hi | unreadableType hi | unreadableStart hi =>
      exact absurd (hk.symm.trans hi) (by decide)

theorem implName_of_typeless (h : n.child? "type" = none) :
    n.implName path = .error (.unnamedImpl path (n.label.start.row + 1) "") := by
  rw [implName, h]

theorem implName_of_startsWith {type : Node} (h : n.child? "type" = some type)
    (hm : type.StartsWith m) : n.implName path = decoded m.text := by
  rw [implName, h]
  simp only [hm.leadingName_eq]
  cases decoded m.text <;> rfl

theorem implName_of_unresolved {type : Node} (h : n.child? "type" = some type)
    (hnone : ∀ m, ¬ type.StartsWith m) :
    n.implName path = decoded type.text >>= fun text =>
      .error (.unnamedImpl path (n.label.start.row + 1) text) := by
  rw [implName, h]
  simp only [leadingName_of_not_startsWith hnone]
  rfl

theorem implName_eq_ok_iff {name : String} (hk : n.kind = "impl_item") :
    n.implName path = .ok name ↔ n.Called name := by
  constructor
  · intro h
    cases hc : n.child? "type" with
    | none => rw [implName_of_typeless hc] at h; cases h
    | some type =>
      by_cases hstart : ∃ m, type.StartsWith m
      · obtain ⟨m, hm⟩ := hstart
        rw [implName_of_startsWith hc hm] at h
        exact .impl hk hc hm (decoded_eq_ok_iff.mp h)
      · rw [implName_of_unresolved hc (not_exists.mp hstart), bind_eq_ok_iff] at h
        obtain ⟨_, _, h⟩ := h
        cases h
  · rintro (⟨hf, _, _⟩ | ⟨_, hc, hm, ht⟩)
    · exact absurd (hk.symm.trans hf) (by decide)
    · rw [implName_of_startsWith hc hm]
      exact decoded_eq_ok_iff.mpr ht

theorem implName_eq_error_iff (hk : n.kind = "impl_item") :
    n.implName path = .error e ↔ n.Fails path e := by
  constructor
  · intro h
    cases hc : n.child? "type" with
    | none =>
      rw [implName_of_typeless hc] at h
      cases h
      exact .typeless hk hc
    | some type =>
      by_cases hstart : ∃ m, type.StartsWith m
      · obtain ⟨m, hm⟩ := hstart
        rw [implName_of_startsWith hc hm] at h
        obtain ⟨e, he, rfl⟩ := decoded_eq_error_iff.mp h
        exact .unreadableStart hk hc hm he
      · rw [implName_of_unresolved hc (not_exists.mp hstart)] at h
        cases ht : decoded type.text with
        | error e' =>
          rw [ht] at h
          cases h
          obtain ⟨e, he, rfl⟩ := decoded_eq_error_iff.mp ht
          exact .unreadableType hk hc (not_exists.mp hstart) he
        | ok text =>
          rw [ht] at h
          cases h
          exact .unresolved hk hc (not_exists.mp hstart) (decoded_eq_ok_iff.mp ht)
  · intro h
    cases h with
    | nameless hf | unreadable hf =>
      exact absurd (hk.symm.trans hf) (by decide)
    | typeless _ hc => exact implName_of_typeless hc
    | unresolved _ hc hnone ht =>
      rw [implName_of_unresolved hc hnone, decoded_eq_ok_iff.mpr ht]
      rfl
    | unreadableType _ hc hnone he =>
      rw [implName_of_unresolved hc hnone, decoded_eq_error_iff.mpr ⟨_, he, rfl⟩]
      rfl
    | unreadableStart _ hc hm he =>
      rw [implName_of_startsWith hc hm]
      exact decoded_eq_error_iff.mpr ⟨_, he, rfl⟩

/-- The name of a function or an `impl`. -/
def declaredName (path : String) (n : Node) : Except Failure String :=
  if n.kind = "impl_item" then n.implName path else requiredText (n.child? "name")

theorem declaredName_of_function (hk : n.kind = "function_item") :
    n.declaredName path = requiredText (n.child? "name") := by
  rw [declaredName, if_neg (by simp [hk])]

theorem declaredName_of_impl (hk : n.kind = "impl_item") :
    n.declaredName path = n.implName path := by
  rw [declaredName, if_pos hk]

theorem isDeclared_iff :
    n.isDeclared = true ↔ n.kind = "function_item" ∨ n.kind = "impl_item" := by
  simp [isDeclared]

theorem declaredName_eq_ok_iff {name : String} (h : n.isDeclared = true) :
    n.declaredName path = .ok name ↔ n.Called name := by
  rcases isDeclared_iff.mp h with hk | hk
  · rw [declaredName_of_function hk, requiredText_eq_ok_iff hk]
  · rw [declaredName_of_impl hk, implName_eq_ok_iff hk]

theorem declaredName_eq_error_iff (h : n.isDeclared = true) :
    n.declaredName path = .error e ↔ n.Fails path e := by
  rcases isDeclared_iff.mp h with hk | hk
  · rw [declaredName_of_function hk, requiredText_eq_error_iff hk]
  · rw [declaredName_of_impl hk, implName_eq_error_iff hk]

/-! ### Symbols -/

theorem itemKind_eq_fn_iff : n.itemKind = .fn ↔ n.kind = "function_item" :=
  ⟨fun h => ItemKind.eq_of_ofNodeKind_eq h (by decide), fun h => congrArg ItemKind.ofNodeKind h⟩

theorem itemKind_eq_impl_iff : n.itemKind = .impl ↔ n.kind = "impl_item" :=
  ⟨fun h => ItemKind.eq_of_ofNodeKind_eq h (by decide), fun h => congrArg ItemKind.ofNodeKind h⟩

theorem symbol?_of_function (hk : n.kind = "function_item") :
    n.symbol? path = (n.symbol .fn).map some := by
  simp only [symbol?, itemKind_eq_fn_iff.mpr hk]
  rfl

theorem symbol?_of_impl (hk : n.kind = "impl_item") :
    n.symbol? path = n.implName path >>= fun name =>
      (n.methods.mapM (symbol .method)).map fun ts => some (.node name .impl 0 ts) := by
  simp only [symbol?, itemKind_eq_impl_iff.mpr hk]
  rfl

theorem symbol?_of_not_isDeclared (h : n.isDeclared = false) : n.symbol? path = .ok none := by
  simp only [isDeclared, Bool.or_eq_false_iff, beq_eq_false_iff_ne] at h
  rw [symbol?]
  cases hkind : n.itemKind with
  | fn => exact absurd (itemKind_eq_fn_iff.mp hkind) h.1
  | impl => exact absurd (itemKind_eq_impl_iff.mp hkind) h.2
  | _ => rfl

theorem filter_isDeclared_items (n : Node) : n.items.filter isDeclared = n.declarations := by
  rw [items, declarations, List.filter_filter]
  refine List.filter_congr fun c _ => ?_
  cases h : c.isDeclared with
  | false => rfl
  | true =>
    rcases isDeclared_iff.mp h with hk | hk <;> simp [isAside, hk]

theorem methods_eq (n : Node) : n.methods = n.bodyFunctions := by
  rw [methods, bodyItems, bodyFunctions]
  cases n.child? "body" with
  | none => rfl
  | some body =>
    simp only [Option.toList_some, List.flatMap_singleton, items, List.filter_filter]
    refine List.filter_congr fun c _ => ?_
    by_cases hk : c.kind = "function_item" <;> simp [isAside, hk]

theorem kind_of_mem_bodyFunctions (h : m ∈ n.bodyFunctions) : m.kind = "function_item" := by
  rw [← methods_eq] at h
  simpa using (List.mem_filter.mp h).2

theorem isDeclared_of_mem_named {d : Node} (hn : n.isDeclared = true) (h : d ∈ n.named) :
    d.isDeclared = true := by
  unfold named at h
  split at h
  · rcases List.mem_cons.mp h with rfl | h
    · exact hn
    · exact isDeclared_iff.mpr (.inl (kind_of_mem_bodyFunctions h))
  · rwa [List.mem_singleton.mp h]

theorem symbol_eq (kind : SymbolKind) (n : Node) : n.symbol kind =
    (requiredText (n.child? "name")).map fun name =>
      .node name kind (decisionsOf (n.child? "body")) [] := rfl

theorem failure?_symbol {kind : SymbolKind} (hk : n.kind = "function_item") :
    failure? (n.symbol kind) = failure? (n.declaredName path) := by
  rw [symbol_eq, failure?_map, declaredName_of_function hk]

theorem failure?_methods (n : Node) :
    failure? (n.methods.mapM (symbol .method)) =
      failure? (n.bodyFunctions.mapM (declaredName path)) := by
  calc failure? (n.methods.mapM (symbol .method))
    _ = failure? ((n.bodyFunctions.flatMap fun m => [m]).mapM (declaredName path)) := by
      rw [methods_eq]
      refine failure?_mapM_flatMap fun m hm => ?_
      rw [failure?_symbol (kind_of_mem_bodyFunctions hm), failure?_mapM_cons, List.mapM_nil]
      exact Option.or_none.symm
    _ = failure? (n.bodyFunctions.mapM (declaredName path)) := by
      rw [List.flatMap_singleton']

theorem failure?_symbol? (h : n.isDeclared = true) :
    failure? (n.symbol? path) = failure? (n.named.mapM (declaredName path)) := by
  rcases isDeclared_iff.mp h with hk | hk
  · rw [symbol?_of_function hk, failure?_map, failure?_symbol hk, named, if_neg (by simp [hk]),
      failure?_mapM_cons, List.mapM_nil]
    exact Option.or_none.symm
  · rw [symbol?_of_impl hk, named, if_pos hk, failure?_mapM_cons, ← failure?_methods,
      declaredName_of_impl hk]
    cases n.implName path with
    | error e => rfl
    | ok name => exact failure?_map _ _

theorem outline_eq (path label : String) (root : Node) : root.outline path label =
    (root.items.mapM (symbol? path)).map fun os => .node label .file 0 (os.filterMap id) := rfl

theorem failure?_outline (root : Node) :
    failure? (root.outline path label) =
      failure? ((root.declarations.flatMap named).mapM (declaredName path)) := by
  have hskip : ∀ n ∈ root.items, n.isDeclared = false → failure? (n.symbol? path) = none := by
    intro n _ hn
    rw [symbol?_of_not_isDeclared hn]
    rfl
  rw [outline_eq, failure?_map, failure?_mapM_filter hskip, filter_isDeclared_items]
  exact failure?_mapM_flatMap fun n hn => failure?_symbol? (List.mem_filter.mp hn).2

theorem symbol_eq_ok_iff {kind : SymbolKind} {t : SymbolTree} (hk : n.kind = "function_item") :
    n.symbol kind = .ok t ↔
      ∃ name, n.Called name ∧ t = .node name kind (decisionsOf (n.child? "body")) [] := by
  rw [symbol_eq, map_eq_ok_iff]
  simp only [requiredText_eq_ok_iff hk, eq_comm]

theorem mapM_symbol_eq_ok_iff {ts : List SymbolTree} :
    n.methods.mapM (symbol .method) = .ok ts ↔ List.Forall₂ DepictsMethod n.bodyFunctions ts := by
  rw [methods_eq, mapM_eq_ok_iff]
  have hiff : ∀ m ∈ n.bodyFunctions, ∀ t, m.symbol .method = .ok t ↔ m.DepictsMethod t :=
    fun m hm t => symbol_eq_ok_iff (kind_of_mem_bodyFunctions hm)
  generalize n.bodyFunctions = ms at hiff
  induction ms generalizing ts with
  | nil => simp
  | cons m ms ih =>
    simp only [List.forall₂_cons_left_iff, hiff m List.mem_cons_self,
      ih fun m hm => hiff m (List.mem_cons_of_mem _ hm)]

theorem symbol?_eq_ok_iff {o : Option SymbolTree} (h : n.isDeclared = true) :
    n.symbol? path = .ok o ↔ ∃ t, n.Depicts t ∧ some t = o := by
  rcases isDeclared_iff.mp h with hk | hk
  · rw [symbol?_of_function hk, map_eq_ok_iff]
    refine exists_congr fun t => and_congr_left fun _ => ?_
    rw [symbol_eq_ok_iff hk]
    constructor
    · rintro ⟨name, hname, rfl⟩
      exact .function hk hname
    · intro ht
      cases ht with
      | function _ hname => exact ⟨_, hname, rfl⟩
      | impl hi _ _ => exact absurd (hk.symm.trans hi) (by decide)
  · rw [symbol?_of_impl hk, bind_eq_ok_iff]
    constructor
    · rintro ⟨name, hname, hts⟩
      obtain ⟨ts, hmethods, rfl⟩ := map_eq_ok_iff.mp hts
      exact ⟨_, .impl hk ((implName_eq_ok_iff hk).mp hname) (mapM_symbol_eq_ok_iff.mp hmethods),
        rfl⟩
    · rintro ⟨t, ht, rfl⟩
      cases ht with
      | function hf _ => exact absurd (hk.symm.trans hf) (by decide)
      | impl _ hname hts =>
        exact ⟨_, (implName_eq_ok_iff hk).mpr hname,
          map_eq_ok_iff.mpr ⟨_, mapM_symbol_eq_ok_iff.mpr hts, rfl⟩⟩

/-- The symbols of items, without those that have none. -/
theorem exists_symbols_iff {items : List Node} {ts : List SymbolTree} :
    (∃ os, items.mapM (symbol? path) = .ok os ∧ os.filterMap id = ts) ↔
      List.Forall₂ Depicts (items.filter isDeclared) ts := by
  simp only [mapM_eq_ok_iff]
  induction items generalizing ts with
  | nil =>
    simp [eq_comm]
  | cons n items ih =>
    simp only [List.forall₂_cons_left_iff]
    cases hn : n.isDeclared with
    | false =>
      rw [List.filter_cons_of_neg (by simp [hn]), ← ih, symbol?_of_not_isDeclared hn]
      constructor
      · rintro ⟨_, ⟨_, os, ho, hos, rfl⟩, hts⟩
        cases ho
        exact ⟨os, hos, hts⟩
      · rintro ⟨os, hos, hts⟩
        exact ⟨none :: os, ⟨none, os, rfl, hos, rfl⟩, hts⟩
    | true =>
      rw [List.filter_cons_of_pos hn, List.forall₂_cons_left_iff]
      constructor
      · rintro ⟨_, ⟨o, os, ho, hos, rfl⟩, rfl⟩
        obtain ⟨t, ht, rfl⟩ := (symbol?_eq_ok_iff hn).mp ho
        exact ⟨t, os.filterMap id, ht, ih.mp ⟨os, hos, rfl⟩, rfl⟩
      · rintro ⟨t, ts, ht, hts, rfl⟩
        obtain ⟨os, hos, rfl⟩ := ih.mpr hts
        exact ⟨some t :: os, ⟨some t, os, (symbol?_eq_ok_iff hn).mpr ⟨t, ht, rfl⟩, hos, rfl⟩, rfl⟩

theorem outline_eq_ok_iff {root : Node} {t : SymbolTree} :
    root.outline path label = .ok t ↔
      ∃ ts, t = .node label .file 0 ts ∧ List.Forall₂ Depicts root.declarations ts := by
  rw [outline_eq, map_eq_ok_iff, ← filter_isDeclared_items]
  constructor
  · rintro ⟨os, hos, rfl⟩
    exact ⟨_, rfl, exists_symbols_iff.mp ⟨os, hos, rfl⟩⟩
  · rintro ⟨ts, rfl, hts⟩
    obtain ⟨os, hos, rfl⟩ := exists_symbols_iff.mpr hts
    exact ⟨os, hos, rfl⟩

theorem isDeclared_of_mem_flatMap {root d : Node} (h : d ∈ root.declarations.flatMap named) :
    d.isDeclared = true := by
  obtain ⟨n, hn, hd⟩ := List.mem_flatMap.mp h
  exact isDeclared_of_mem_named (List.mem_filter.mp hn).2 hd

theorem exists_declaredName_iff {root : Node} :
    ∀ d ∈ root.declarations.flatMap named,
      (∃ name, d.declaredName path = .ok name) ↔ ∃ name, d.Called name := fun _ hd =>
  exists_congr fun _ => declaredName_eq_ok_iff (isDeclared_of_mem_flatMap hd)

theorem exists_outline_iff {root : Node} :
    (∃ t, root.outline path label = .ok t) ↔
      ∀ d ∈ root.declarations.flatMap named, ∃ name, d.Called name := by
  rw [← failure?_eq_none_iff, failure?_outline, failure?_eq_none_iff, exists_mapM_eq_ok_iff]
  exact forall₂_congr exists_declaredName_iff

theorem outline_eq_error_iff {root : Node} :
    root.outline path label = .error e ↔
      ∃ before d after, root.declarations.flatMap named = before ++ d :: after ∧
        (∀ b ∈ before, ∃ name, b.Called name) ∧ d.Fails path e := by
  rw [← failure?_eq_some_iff, failure?_outline, failure?_eq_some_iff, mapM_eq_error_iff]
  refine exists_congr fun before => exists_congr fun d => exists_congr fun after =>
    and_congr_right fun hsplit => ?_
  have hmem : ∀ b ∈ before ++ d :: after, b ∈ root.declarations.flatMap named := by
    simp [hsplit]
  rw [declaredName_eq_error_iff (isDeclared_of_mem_flatMap (hmem d (by simp)))]
  exact and_congr_left fun _ => forall₂_congr fun b hb =>
    exists_declaredName_iff b (hmem b (List.mem_append_left _ hb))

theorem mem_preorder_of_impl {root d : Node} (h : d ∈ root.declarations.flatMap named)
    (hk : d.kind = "impl_item") : d ∈ root.preorder := by
  obtain ⟨n, hn, hd⟩ := List.mem_flatMap.mp h
  have hdn : d = n := by
    unfold named at hd
    split at hd
    · rcases List.mem_cons.mp hd with hd | hd
      · exact hd
      · exact absurd (hk.symm.trans (kind_of_mem_bodyFunctions hd)) (by decide)
    · exact List.mem_singleton.mp hd
  have hchild : n ∈ root.children := List.mem_of_mem_filter (List.mem_of_mem_filter hn)
  exact hdn ▸ mem_preorder_of_mem_children hchild _ (mem_preorder_self root)

theorem fails_of_typeReads {root d : Node} {text : String} (hb : root.ReadableBelow)
    (hd : d ∈ root.preorder) (hk : d.kind = "impl_item") (hnone : ∀ name, ¬ d.Called name)
    (htext : d.TypeReads text) : d.Fails path (.unnamedImpl path (d.label.start.row + 1) text) := by
  unfold TypeReads at htext
  split at htext
  · next htype =>
    subst htext
    exact .typeless hk htype
  · next type htype =>
    refine .unresolved hk htype (fun m hm => ?_) htext
    have hmem := mem_preorder_of_mem_children (child?_mem htype) _ hd
    obtain ⟨name, hname⟩ := hm.readable hb hmem ⟨text, htext⟩
    exact hnone name (.impl hk htype hm hname)

/-- A file has an outline exactly if everything in it that is named has a name. Otherwise the
first that has none says why, and an `impl` without a name is blamed on the file at `path`: in a
tree that the parser made with the text of its type, if it has one that can be read. The outline
holds a leaf for each function and a group of leaves for each `impl`. -/
theorem outline_or_first_failure (path label : String) (root : Node) :
    ((∃ t, root.outline path label = .ok t) ↔
        ∀ d ∈ root.declarations.flatMap named, ∃ name, d.Called name) ∧
      (∀ e, root.outline path label = .error e ↔
        ∃ before d after, root.declarations.flatMap named = before ++ d :: after ∧
          (∀ b ∈ before, ∃ name, b.Called name) ∧ d.Fails path e) ∧
      (root.ReadableBelow → ∀ before d after text,
        root.declarations.flatMap named = before ++ d :: after →
        (∀ b ∈ before, ∃ name, b.Called name) → d.kind = "impl_item" →
        (∀ name, ¬ d.Called name) → d.TypeReads text →
        root.outline path label = .error (.unnamedImpl path (d.label.start.row + 1) text)) ∧
      ∀ t, root.outline path label = .ok t ↔
        ∃ ts, t = .node label .file 0 ts ∧ List.Forall₂ Depicts root.declarations ts := by
  refine ⟨exists_outline_iff, fun _ => outline_eq_error_iff, ?_, fun _ => outline_eq_ok_iff⟩
  intro hb before d after text hsplit hbefore hk hnone htext
  have hd : d ∈ root.declarations.flatMap named := by simp [hsplit]
  exact outline_eq_error_iff.mpr ⟨before, d, after, hsplit, hbefore,
    fails_of_typeReads hb (mem_preorder_of_impl hd hk) hk hnone htext⟩

/-- `fn f() {}` -/
def emptyFn : Node :=
  .phrase 1 "function_item" "" "fn f() \x7b\x7d"
    [.token 2 "fn", .phrase 3 "identifier" "name" "f" [],
      .phrase 4 "parameters" "parameters" "()" [.token 5 "(", .token 6 ")"],
      .phrase 7 "block" "body" "\x7b\x7d" [.token 8 "\x7b", .token 9 "\x7d"]]

/-- `impl [é] {}`, on the second line. -/
def sliceImpl : Node :=
  .node ⟨"impl_item", true, false, false, false, "", ⟨1, 0⟩, "impl [é] \x7b\x7d".toUTF8, 10⟩
    [.token 11 "impl",
      .phrase 12 "array_type" "type" "[é]"
        [.token 13 "[", .phrase 14 "type_identifier" "element" "é" [], .token 15 "]"],
      .phrase 16 "declaration_list" "body" "\x7b\x7d" [.token 17 "\x7b", .token 18 "\x7d"]]

def sliceFile : Node :=
  .phrase 0 "source_file" "" "fn f() \x7b\x7d\nimpl [é] \x7b\x7d" [emptyFn, sliceImpl]

theorem not_called_sliceImpl (name : String) : ¬ sliceImpl.Called name := by
  intro h
  have hname : sliceImpl.implName "a.rs" = .ok name := (implName_eq_ok_iff rfl).mpr h
  have hnone : (sliceImpl.implName "a.rs").toOption = none := by decide +kernel
  rw [hname] at hnone
  cases hnone

/-- Slices start with no name. -/
theorem slice_has_no_name : sliceFile.ReadableBelow ∧ sliceImpl.TypeReads "[é]" ∧
    sliceFile.outline "a.rs" "a.rs" = .error (.unnamedImpl "a.rs" 2 "[é]") := by
  have hb : sliceFile.ReadableBelow := by decide +kernel
  have htext : sliceImpl.TypeReads "[é]" := rfl
  have hbefore : ∀ b ∈ [emptyFn], ∃ name, b.Called name := by
    intro b hmem
    cases List.mem_singleton.mp hmem
    exact ⟨"f", .function rfl rfl rfl⟩
  obtain ⟨_, _, hreport, _⟩ := outline_or_first_failure "a.rs" "a.rs" sliceFile
  exact ⟨hb, htext, hreport hb [emptyFn] sliceImpl [] "[é]" rfl hbefore rfl not_called_sliceImpl
    htext⟩

end Node

end RustMetrics
