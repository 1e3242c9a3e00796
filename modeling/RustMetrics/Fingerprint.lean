import RustMetrics.Digest.Blake2b
import RustMetrics.Import.Tree
import RustMetrics.Node.Basic
import RustMetrics.Text.Quoted
import RustMetrics.Text.Utf8

/-! Fingerprints of subtrees. The fingerprint of a node is the hash of its kind and
the fingerprints of its children; a node without children adds its text
instead, after a zero byte. Extra children do not count, so comments leave a
fingerprint alone as long as something else is left below the node. -/

namespace RustMetrics

structure Fingerprint where
  word : UInt64
  deriving DecidableEq, Hashable, Repr

namespace Fingerprint

/-- The eight bytes of a fingerprint, highest first. -/
def bytes (f : Fingerprint) : List UInt8 :=
  (List.range 8).map fun i => (f.word >>> (8 * UInt64.ofNat (7 - i))).toUInt8

/-- The fingerprint with the given bytes, highest first. -/
def ofBytes (bytes : List UInt8) : Fingerprint :=
  ⟨bytes.foldl (fun n b => (n <<< 8) ||| b.toUInt64) 0⟩

/-- Sixteen hexadecimal digits. -/
def hex (f : Fingerprint) : String := String.ofList (Text.hex 16 f.word.toNat)

/-- What is hashed for a node. -/
def message (kind : String) (text : ByteArray) (children : List Fingerprint) : List UInt8 :=
  Utf8.encode kind ++ (if children.isEmpty then 0 :: text.toList else [])
    ++ children.flatMap bytes

def combine (kind : String) (text : ByteArray) (children : List Fingerprint) : Fingerprint :=
  ofBytes (Blake2b.digest (message kind text children))

end Fingerprint

namespace Node

mutual

def fingerprint : Node → Fingerprint
  | node l cs => .combine l.kind l.text (fingerprints cs)

/-- The fingerprints of those children that are not extra. -/
def fingerprints : List Node → List Fingerprint
  | [] => []
  | c :: cs => if c.label.extra then fingerprints cs else fingerprint c :: fingerprints cs

end

theorem fingerprints_eq_map (cs : List Node) :
    fingerprints cs = (cs.filter fun c => !c.label.extra).map fingerprint := by
  induction cs with
  | nil => rfl
  | cons c cs ih =>
    by_cases h : c.label.extra = true
    · simp [fingerprints, h, ih]
    · simp [fingerprints, h, ih]

theorem fingerprint_eq (n : Node) :
    n.fingerprint = .combine n.kind n.label.text (n.solidChildren.map fingerprint) := by
  obtain ⟨l, cs⟩ := n
  rw [fingerprint, fingerprints_eq_map]
  rfl

end Node

namespace ImportTree

mutual

def fingerprint : ImportTree → Fingerprint
  | node k n cs => .combine k.word n.toUTF8 (fingerprints cs)

def fingerprints : List ImportTree → List Fingerprint
  | [] => []
  | c :: cs => fingerprint c :: fingerprints cs

end

theorem fingerprints_eq_map (cs : List ImportTree) : fingerprints cs = cs.map fingerprint := by
  induction cs with
  | nil => rfl
  | cons c cs ih => simp [fingerprints, ih]

theorem fingerprint_eq (t : ImportTree) :
    t.fingerprint = .combine t.kind.word t.name.toUTF8 (t.children.map fingerprint) := by
  obtain ⟨k, n, cs⟩ := t
  rw [fingerprint, fingerprints_eq_map]
  rfl

end ImportTree

end RustMetrics
