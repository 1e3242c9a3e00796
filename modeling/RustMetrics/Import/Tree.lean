/-! Import paths. `use a::b::{c, d as e}` is a path record for `a`, which holds a
path record for `b`, which holds a group of a name and a rename: one record for
each step. A path record has two children, its segment and the rest of the
path; a rename has the imported segment and the new name. -/

namespace RustMetrics

inductive ImportKind where
  | segment
  | name
  | rename
  | glob
  | group
  | path
  /-- A record of some other make. -/
  | other (word : String)
  deriving DecidableEq, Repr, Hashable

namespace ImportKind

def word : ImportKind → String
  | segment => "identifier"
  | name => "use_name"
  | rename => "use_rename"
  | glob => "use_glob"
  | group => "use_group"
  | path => "use_path"
  | other w => w

def ofWord : String → ImportKind
  | "identifier" => segment
  | "use_name" => name
  | "use_rename" => rename
  | "use_glob" => glob
  | "use_group" => group
  | "use_path" => path
  | w => other w

end ImportKind

inductive ImportTree where
  | node (kind : ImportKind) (name : String) (children : List ImportTree)
  deriving Repr

namespace ImportTree

def kind : ImportTree → ImportKind
  | node k _ _ => k

def name : ImportTree → String
  | node _ n _ => n

def children : ImportTree → List ImportTree
  | node _ _ cs => cs

/-- The records that continue an import. The segment of a path and the two names
of a rename are children and continue nothing. -/
def branches : ImportTree → List ImportTree
  | node .path _ cs => cs.drop 1
  | node .group _ cs => cs
  | _ => []

def segment (s : String) : ImportTree := node .segment s []

/-- A segment before an import. -/
def step (s : String) (rest : ImportTree) : ImportTree := node .path s [segment s, rest]

/-- Segments before an import, outermost first. -/
def under (segments : List String) (rest : ImportTree) : ImportTree :=
  segments.foldr step rest

mutual

def size : ImportTree → Nat
  | node _ _ cs => sizes cs + 1

def sizes : List ImportTree → Nat
  | [] => 0
  | c :: cs => size c + sizes cs

end

theorem size_eq (t : ImportTree) : t.size = sizes t.children + 1 := by
  cases t; rfl

theorem size_pos (t : ImportTree) : 0 < t.size := by
  rw [size_eq]; omega

theorem size_le_sizes_of_mem {c : ImportTree} {cs : List ImportTree} (h : c ∈ cs) :
    c.size ≤ sizes cs := by
  induction cs with
  | nil => cases h
  | cons d cs ih =>
    simp only [sizes]
    rcases List.mem_cons.mp h with rfl | h
    · omega
    · have := ih h
      omega

theorem sizes_drop_le (n : Nat) (cs : List ImportTree) : sizes (cs.drop n) ≤ sizes cs := by
  induction cs generalizing n with
  | nil => simp
  | cons c cs ih =>
    cases n with
    | zero => simp
    | succ n =>
      have := ih n
      simp only [List.drop_succ_cons, sizes]
      omega

theorem sizes_branches_lt (t : ImportTree) : sizes t.branches < t.size := by
  obtain ⟨k, n, cs⟩ := t
  have := sizes_drop_le 1 cs
  cases k <;> simp only [branches, sizes, size] <;> omega

mutual

def decEq : (a b : ImportTree) → Decidable (a = b)
  | node k n cs, node l m ds =>
    if h : k = l ∧ n = m then
      match decEqs cs ds with
      | isTrue hc => isTrue (by rw [h.1, h.2, hc])
      | isFalse hc => isFalse (fun e => by injection e with _ _ e; exact hc e)
    else isFalse (fun e => by injection e with e₁ e₂ _; exact h ⟨e₁, e₂⟩)

def decEqs : (as bs : List ImportTree) → Decidable (as = bs)
  | [], [] => isTrue rfl
  | [], _ :: _ => isFalse (fun e => by cases e)
  | _ :: _, [] => isFalse (fun e => by cases e)
  | a :: as, b :: bs =>
    match decEq a b with
    | isTrue h => match decEqs as bs with
      | isTrue hs => isTrue (by rw [h, hs])
      | isFalse hs => isFalse (fun e => by injection e with _ e; exact hs e)
    | isFalse h => isFalse (fun e => by injection e with e _; exact h e)

end

instance : DecidableEq ImportTree := decEq

mutual

def hashCode : ImportTree → UInt64
  | node k n cs => hashCodes (mixHash (hash k) (hash n)) cs

def hashCodes (seed : UInt64) : List ImportTree → UInt64
  | [] => seed
  | c :: cs => hashCodes (mixHash seed (hashCode c)) cs

end

instance : Hashable ImportTree := ⟨hashCode⟩

end ImportTree

end RustMetrics
