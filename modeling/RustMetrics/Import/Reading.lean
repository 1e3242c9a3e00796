import RustMetrics.Failure
import RustMetrics.Import.Tree
import RustMetrics.Node.Basic

/-! Reading the import of a `use` declaration. The syntax nests paths to the left,
imports nest to the right. What a reading needs and does not find is an error,
and of several the first one in the order of reading is reported. -/

namespace RustMetrics

/-- The text of a node that has to be there. -/
def Node.requiredText : Option Node → Except Failure String
  | none => .error (.absentNode .text)
  | some n => decoded n.text

namespace ImportTree

/-- The segments of a path, innermost first. The parts of a scoped path nest to
the left, so each step leads to a smaller node. -/
def segmentsOf (n : Node) : Except Failure (List String) := do
  if n.kind = "scoped_identifier" then
    let last ← Node.requiredText (n.child? "name")
    match _h : n.child? "path" with
    | none => return [last]
    | some path => return last :: (← segmentsOf path)
  else
    return [← decoded n.text]
termination_by n.size
decreasing_by exact Node.size_child?_lt _h

/-- The segments of a path that may be absent, outermost first. -/
def segments : Option Node → Except Failure (List String)
  | none => .ok []
  | some n => (segmentsOf n).map List.reverse

/-- A path, where there is one, before an import. -/
def withPath (path : Option Node) (rest : ImportTree) : Except Failure ImportTree :=
  (segments path).map fun ss => under ss rest

/-- The import under a new name of the last of some segments. -/
def renamed (ss : List String) (newName : String) : Except Failure ImportTree :=
  match ss.getLast? with
  | none => .error .emptyImport
  | some last =>
    .ok (under ss.dropLast (node .rename last [segment last, segment newName]))

/-- The import that a node stands for. -/
def read (n : Node) : Except Failure ImportTree := do
  match n.kind with
  | "use_declaration" =>
    match _h : n.child? "argument" with
    | none => .error (.absentNode .kind)
    | some argument => read argument
  | "scoped_identifier" =>
    let last ← Node.requiredText (n.child? "name")
    withPath (n.child? "path") (node .name last [])
  | "use_as_clause" =>
    let ss ← segments (n.child? "path")
    let newName ← Node.requiredText (n.child? "alias")
    renamed ss newName
  | "use_wildcard" => withPath n.phrases.head? (node .glob "*" [])
  | "scoped_use_list" =>
    match _h : n.child? "list" with
    | none => .error (.absentNode .kind)
    | some list =>
      let group ← read list
      withPath (n.child? "path") group
  | "use_list" => return node .group "" (← n.phrases.attach.mapM fun c => read c.1)
  | _ => return node .name (← decoded n.text) []
termination_by n.size
decreasing_by
  · exact Node.size_child?_lt _h
  · exact Node.size_child?_lt _h
  · exact Nat.lt_of_le_of_lt (Node.size_le_sizes_of_mem c.2) (Node.sizes_phrases_lt n)

/-- The last segment of a path, before those that lead to it. -/
theorem segmentsOf_eq (n : Node) : segmentsOf n =
    if n.kind = "scoped_identifier" then
      Node.requiredText (n.child? "name") >>= fun last =>
        match n.child? "path" with
        | none => .ok [last]
        | some path => segmentsOf path >>= fun before => .ok (last :: before)
    else decoded n.text >>= fun s => .ok [s] := by
  fun_cases segmentsOf n with
  | case1 hk =>
    rw [if_pos hk]
    congr 1
    funext last
    split
    next hp => rw [hp]; rfl
    next path hp => rw [hp]; rfl
  | case2 hk => rw [if_neg hk]; rfl

/-- One level of reading. -/
theorem read_eq (n : Node) : read n =
    match n.kind with
    | "use_declaration" =>
      match n.child? "argument" with
      | none => .error (.absentNode .kind)
      | some argument => read argument
    | "scoped_identifier" =>
      Node.requiredText (n.child? "name") >>= fun last =>
        withPath (n.child? "path") (node .name last [])
    | "use_as_clause" =>
      segments (n.child? "path") >>= fun ss =>
        Node.requiredText (n.child? "alias") >>= fun newName => renamed ss newName
    | "use_wildcard" => withPath n.phrases.head? (node .glob "*" [])
    | "scoped_use_list" =>
      match n.child? "list" with
      | none => .error (.absentNode .kind)
      | some list => read list >>= fun group => withPath (n.child? "path") group
    | "use_list" => (node .group "" ·) <$> n.phrases.mapM read
    | _ => decoded n.text >>= fun s => .ok (node .name s []) := by
  fun_cases read n with
  | case1 hk ha => simp only [hk, ha]
  | case2 hk argument ha => simp only [hk, ha]
  | case3 hk => simp only [hk]
  | case4 hk => simp only [hk]
  | case5 hk => simp only [hk]
  | case6 hk hl => simp only [hk, hl]
  | case7 hk list hl => simp only [hk, hl]
  | case8 hk =>
    simp only [hk]
    rw [List.mapM_subtype (fun _ _ => rfl), List.unattach_attach]
    rfl
  | case9 h₁ h₂ h₃ h₄ h₅ h₆ =>
    split
    · contradiction
    · contradiction
    · contradiction
    · contradiction
    · contradiction
    · contradiction
    · rfl

end ImportTree

end RustMetrics
