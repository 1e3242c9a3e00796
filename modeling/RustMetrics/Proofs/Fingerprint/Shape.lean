import Mathlib.Data.List.Nodup
import Mathlib.Data.Set.Function
import RustMetrics.Fingerprint

/-! The shape of a subtree is all that its fingerprint is made from: its kind, the
shapes of the children that are not extra, and its text if there are none. Two
subtrees with one shape have one fingerprint; the converse is what a digest
without collisions would give.

A digest of at most 128 bytes is one compression. A table of small shapes with their
fingerprints can so be checked by evaluation, one compression for each line
(`fingerprint_ofLines`). -/

namespace RustMetrics

/-- `text` is empty if there are children. -/
inductive Shape where
  | node (kind : String) (text : ByteArray) (children : List Shape)

namespace Shape

def kind : Shape → String
  | node k _ _ => k

/-- The text counts only without children. -/
def make (kind : String) (text : ByteArray) (children : List Shape) : Shape :=
  node kind (if children.isEmpty then text else .empty) children

mutual

def fingerprint : Shape → Fingerprint
  | node k t cs => .combine k t (fingerprints cs)

def fingerprints : List Shape → List Fingerprint
  | [] => []
  | c :: cs => fingerprint c :: fingerprints cs

end

theorem fingerprints_eq_map (ss : List Shape) : fingerprints ss = ss.map fingerprint := by
  induction ss with
  | nil => rfl
  | cons s ss ih => rw [fingerprints, ih, List.map_cons]

theorem fingerprint_make (k : String) (t : ByteArray) (ss : List Shape) :
    (make k t ss).fingerprint = .combine k t (fingerprints ss) := by
  rw [make, fingerprint]
  cases ss with
  | nil => rfl
  | cons s ss => simp [Fingerprint.combine, Fingerprint.message, fingerprints]

end Shape

namespace Node

mutual

def shape : Node → Shape
  | node l cs => .make l.kind l.text (shapes cs)

/-- The shapes of those children that are not extra. -/
def shapes : List Node → List Shape
  | [] => []
  | c :: cs => if c.label.extra then shapes cs else shape c :: shapes cs

end

theorem kind_shape (n : Node) : n.shape.kind = n.kind := by
  obtain ⟨l, cs⟩ := n
  rfl

mutual

theorem fingerprint_shape : (n : Node) → n.shape.fingerprint = n.fingerprint
  | node l cs => by rw [shape, Shape.fingerprint_make, fingerprints_shapes cs, fingerprint]

theorem fingerprints_shapes : (cs : List Node) → Shape.fingerprints (shapes cs) = fingerprints cs
  | [] => rfl
  | c :: cs => by
    rw [shapes, fingerprints]
    split
    · exact fingerprints_shapes cs
    · rw [Shape.fingerprints, fingerprint_shape c, fingerprints_shapes cs]

end

end Node

namespace ImportTree

mutual

def shape : ImportTree → Shape
  | node k n cs => .make k.word n.toUTF8 (shapes cs)

def shapes : List ImportTree → List Shape
  | [] => []
  | c :: cs => shape c :: shapes cs

end

mutual

theorem fingerprint_shape : (t : ImportTree) → t.shape.fingerprint = t.fingerprint
  | node k n cs => by rw [shape, Shape.fingerprint_make, fingerprints_shapes cs, fingerprint]

theorem fingerprints_shapes :
    (cs : List ImportTree) → Shape.fingerprints (shapes cs) = fingerprints cs
  | [] => rfl
  | c :: cs => by
    rw [shapes, fingerprints, Shape.fingerprints, fingerprint_shape c, fingerprints_shapes cs]

end

end ImportTree

theorem Blake2b.digest_of_length_le {bytes : List UInt8} (h : bytes.length ≤ 128) :
    digest bytes = bytesOf
      (compress initial (blockWords bytes) (UInt64.ofNat bytes.length) true).h0 := by
  rw [digest, absorb, if_pos h, Nat.zero_add]

/-- A shape and its fingerprint, as a line of a table: the children are lines before it. -/
structure ShapeLine where
  kind : String
  text : String
  children : List Nat
  word : UInt64

namespace ShapeLine

def fingerprint (line : ShapeLine) : Fingerprint := ⟨line.word⟩

/-- The message of a line fits into one block, and the line has its fingerprint. -/
def correct (line : ShapeLine) (before : List Fingerprint) : Bool :=
  let bytes := Fingerprint.message line.kind line.text.toUTF8
    (line.children.filterMap fun i => before[i]?)
  bytes.length ≤ 128 &&
    Fingerprint.ofBytes (Blake2b.bytesOf (Blake2b.compress Blake2b.initial
      (Blake2b.blockWords bytes) (UInt64.ofNat bytes.length) true).h0) = line.fingerprint

theorem combine_of_correct {line : ShapeLine} {before : List Fingerprint}
    (h : line.correct before = true) :
    Fingerprint.combine line.kind line.text.toUTF8
      (line.children.filterMap fun i => before[i]?) = line.fingerprint := by
  rw [correct, Bool.and_eq_true, decide_eq_true_eq, decide_eq_true_eq] at h
  rw [Fingerprint.combine, Blake2b.digest_of_length_le h.1, h.2]

/-- Every line is correct after those before it. -/
def allCorrect (before : List Fingerprint) : List ShapeLine → Bool
  | [] => true
  | line :: lines => line.correct before && allCorrect (before ++ [line.fingerprint]) lines

end ShapeLine

namespace Shape

/-- The shapes of a table that starts with the shapes `before`. -/
def ofLinesAfter (before : List Shape) : List ShapeLine → List Shape
  | [] => before
  | line :: lines =>
    let children := line.children.filterMap fun i => before[i]?
    ofLinesAfter (before ++ [make line.kind line.text.toUTF8 children]) lines

def ofLines (lines : List ShapeLine) : List Shape := ofLinesAfter [] lines

theorem fingerprint_ofLinesAfter {before : List Shape} {lines : List ShapeLine}
    (h : ShapeLine.allCorrect (before.map fingerprint) lines = true) :
    (ofLinesAfter before lines).map fingerprint =
      before.map fingerprint ++ lines.map ShapeLine.fingerprint := by
  induction lines generalizing before with
  | nil => simp [ofLinesAfter]
  | cons line lines ih =>
    rw [ShapeLine.allCorrect, Bool.and_eq_true] at h
    have hcs : fingerprints (line.children.filterMap fun i => before[i]?) =
        line.children.filterMap fun i => (before.map fingerprint)[i]? := by
      rw [fingerprints_eq_map, List.map_filterMap]
      congr 1
      funext i
      rw [List.getElem?_map]
    have hmake : (make line.kind line.text.toUTF8
        (line.children.filterMap fun i => before[i]?)).fingerprint = line.fingerprint := by
      rw [fingerprint_make, hcs]
      exact ShapeLine.combine_of_correct h.1
    have hbefore : (before ++ [make line.kind line.text.toUTF8
        (line.children.filterMap fun i => before[i]?)]).map fingerprint =
        before.map fingerprint ++ [line.fingerprint] := by
      rw [List.map_append, List.map_singleton, hmake]
    rw [ofLinesAfter, ih (hbefore ▸ h.2), hbefore, List.map_cons, List.append_assoc]
    rfl

/-- A table whose lines are all correct gives the fingerprints of its shapes. -/
theorem fingerprint_ofLines {lines : List ShapeLine}
    (h : ShapeLine.allCorrect [] lines = true) :
    (ofLines lines).map fingerprint = lines.map ShapeLine.fingerprint :=
  fingerprint_ofLinesAfter h

end Shape

theorem Shape.fingerprint_of_line {lines : List ShapeLine} {line : ShapeLine} {shape : Shape}
    {i : Nat} (h : ShapeLine.allCorrect [] lines = true) (hs : (ofLines lines)[i]? = some shape)
    (hl : lines[i]? = some line) : shape.fingerprint = line.fingerprint := by
  have hi := congrArg (fun fs => fs[i]?) (fingerprint_ofLines h)
  simpa only [List.getElem?_map, hs, hl, Option.map_some, Option.some.injEq] using hi

theorem Node.fingerprint_of_line {lines : List ShapeLine} {line : ShapeLine} {n : Node} {i : Nat}
    (h : ShapeLine.allCorrect [] lines = true) (hs : (Shape.ofLines lines)[i]? = some n.shape)
    (hl : lines[i]? = some line) : n.fingerprint = line.fingerprint := by
  rw [← fingerprint_shape, Shape.fingerprint_of_line h hs hl]

theorem ImportTree.fingerprint_of_line {lines : List ShapeLine} {line : ShapeLine}
    {t : ImportTree} {i : Nat} (h : ShapeLine.allCorrect [] lines = true)
    (hs : (Shape.ofLines lines)[i]? = some t.shape) (hl : lines[i]? = some line) :
    t.fingerprint = line.fingerprint := by
  rw [← fingerprint_shape, Shape.fingerprint_of_line h hs hl]

/-- A table with no fingerprint twice has no two shapes with one fingerprint. -/
theorem Shape.injOn_ofLines {lines : List ShapeLine} (h : ShapeLine.allCorrect [] lines = true)
    (hn : (lines.map ShapeLine.fingerprint).Nodup) :
    Set.InjOn Shape.fingerprint {x | x ∈ ofLines lines} := by
  rw [← fingerprint_ofLines h] at hn
  intro x hx y hy he
  exact List.inj_on_of_nodup_map hn hx hy he

/-- Nodes whose shapes stand in a table have no two shapes with one fingerprint if the
table has none. -/
theorem Node.injOn_shapes {nodes : List Node} {lines : List ShapeLine} (places : List Nat)
    (h : ShapeLine.allCorrect [] lines = true) (hn : (lines.map ShapeLine.fingerprint).Nodup)
    (hs : (nodes.map fun n => some n.shape) = places.map fun i => (Shape.ofLines lines)[i]?) :
    Set.InjOn Shape.fingerprint {x | ∃ n ∈ nodes, n.shape = x} := by
  refine (Shape.injOn_ofLines h hn).mono ?_
  rintro x ⟨n, hx, rfl⟩
  have hn' : some n.shape ∈ places.map fun i => (Shape.ofLines lines)[i]? :=
    hs ▸ List.mem_map.mpr ⟨n, hx, rfl⟩
  obtain ⟨i, _, hi⟩ := List.mem_map.mp hn'
  exact List.mem_of_getElem? hi

namespace Node

/-- A named node of a one-line file, where it is numbered as it stands. -/
def phrase (i : Nat) (kind field text : String) (children : List Node) : Node :=
  node ⟨kind, true, false, false, false, field, ⟨0, i⟩, text.toUTF8, i⟩ children

/-- A word or mark of a one-line file. -/
def token (i : Nat) (text : String) : Node :=
  node ⟨text, false, false, false, false, "", ⟨0, i⟩, text.toUTF8, i⟩ []

end Node

end RustMetrics
