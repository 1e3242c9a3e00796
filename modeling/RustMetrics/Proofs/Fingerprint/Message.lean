import RustMetrics.Fingerprint.Subject
import RustMetrics.Proofs.Fingerprint.Bytes
import RustMetrics.Proofs.Fingerprint.Shape
import RustMetrics.Proofs.Text.Utf8

/-! How much of a subject can be read off the bytes that are hashed for it. Kind, text and
fingerprints are written one after another, without lengths. A zero byte stands before a
text and nowhere else, so a message does not say whether it ends in a text or in
fingerprints: a fingerprint can have any bytes, also a zero at its start, and it can also
be read as the end of a longer kind. These are the only ways in which two messages come
to be equal (`message_eq_iff`). A file with one module and a file with one comment meet in
this way.

That the digest itself does not collide is not assumed. If two subjects have one
fingerprint, the result is a pair below them that was hashed from two messages, or from
one message that can be read in two ways. -/

namespace RustMetrics

namespace Utf8

theorem encode_injective : Function.Injective encode := by
  intro s t h
  rw [← lossy_encode s, h, lossy_encode]

theorem toList_injective : Function.Injective ByteArray.toList := by
  have hlist : ∀ b : ByteArray, b.data.toList.toByteArray = b := by
    intro b
    ext1
    simp
  intro a b h
  rw [← hlist a, ← hlist b, toList_toByteArray, toList_toByteArray] at h
  rw [← hlist a, h, hlist b]

end Utf8

namespace Subject

/-- What is hashed for a subject. -/
def message (s : Subject) : List UInt8 :=
  Fingerprint.message s.kind s.text (s.parts.map fingerprint)

variable {s t : Subject}

theorem fingerprint_eq_ofBytes (s : Subject) :
    s.fingerprint = .ofBytes (Blake2b.digest s.message) := s.fingerprint_eq

theorem digest_eq_of_fingerprint_eq (h : s.fingerprint = t.fingerprint) :
    Blake2b.digest s.message = Blake2b.digest t.message := by
  rw [fingerprint_eq_ofBytes, fingerprint_eq_ofBytes] at h
  exact Fingerprint.eq_of_ofBytes_eq (Blake2b.length_digest _) (Blake2b.length_digest _) h

theorem message_of_leaf (h : s.parts = []) :
    s.message = Utf8.encode s.kind ++ 0 :: s.text.toList := by
  simp [message, Fingerprint.message, h]

theorem message_of_parts (h : s.parts ≠ []) :
    s.message = Utf8.encode s.kind ++ (s.parts.map fingerprint).flatMap Fingerprint.bytes := by
  have hempty : (s.parts.map fingerprint).isEmpty = false := by simpa using h
  rw [message, Fingerprint.message, hempty]
  simp

/-- Two subjects are made alike if they have one kind and one list of fingerprints below, and
one text if nothing is below. -/
structure Alike (s t : Subject) : Prop where
  kind : s.kind = t.kind
  parts : s.parts.map fingerprint = t.parts.map fingerprint
  text : s.parts = [] → s.text = t.text

/-- The kind of `s` is that of `t` and the first bytes of the fingerprints below `t`. The rest
of these bytes is a zero and the text of `s`, or the fingerprints below `s`. -/
inductive RunsOver (s t : Subject) : Prop
  | leaf {lead : List UInt8} :
      s.parts = [] → t.parts ≠ [] → Utf8.encode s.kind = Utf8.encode t.kind ++ lead →
      (t.parts.map fingerprint).flatMap Fingerprint.bytes = lead ++ 0 :: s.text.toList →
      RunsOver s t
  | shifted {first : List Fingerprint} :
      s.parts ≠ [] → first ≠ [] →
      Utf8.encode s.kind = Utf8.encode t.kind ++ first.flatMap Fingerprint.bytes →
      t.parts.map fingerprint = first ++ s.parts.map fingerprint → RunsOver s t

theorem Alike.parts_eq_nil_iff (h : s.Alike t) : s.parts = [] ↔ t.parts = [] := by
  rw [← List.map_eq_nil_iff, h.parts, List.map_eq_nil_iff]

theorem Alike.message_eq (h : s.Alike t) : s.message = t.message := by
  by_cases hs : s.parts = []
  · rw [message_of_leaf hs, message_of_leaf (h.parts_eq_nil_iff.mp hs), h.kind, h.text hs]
  · rw [message_of_parts hs, message_of_parts (mt h.parts_eq_nil_iff.mpr hs), h.kind, h.parts]

theorem RunsOver.message_eq (h : s.RunsOver t) : s.message = t.message := by
  cases h with
  | leaf hs ht hkind hbytes =>
    rw [message_of_leaf hs, message_of_parts ht, hkind, hbytes, List.append_assoc]
  | shifted hs hfirst hkind hparts =>
    have ht : t.parts ≠ [] := by
      rintro ht
      rw [ht, List.map_nil] at hparts
      exact hfirst (List.append_eq_nil_iff.mp hparts.symm).1
    rw [message_of_parts hs, message_of_parts ht, hkind, hparts, List.flatMap_append,
      List.append_assoc]

/-- Without a zero in the kinds, the first zero ends both. -/
theorem alike_of_leaves (hs : s.parts = []) (ht : t.parts = []) (hks : 0 ∉ Utf8.encode s.kind)
    (hkt : 0 ∉ Utf8.encode t.kind) (h : s.message = t.message) : s.Alike t := by
  rw [message_of_leaf hs, message_of_leaf ht] at h
  have hsplit : Utf8.encode s.kind = Utf8.encode t.kind ∧ s.text.toList = t.text.toList := by
    rcases List.append_eq_append_iff.mp h with ⟨lead, hkind, htext⟩ | ⟨lead, hkind, htext⟩
    · cases lead with
      | nil =>
        rw [List.append_nil] at hkind
        exact ⟨hkind.symm, (List.cons.inj htext).2⟩
      | cons b lead =>
        obtain ⟨rfl, -⟩ := List.cons.inj htext
        exact absurd (hkind ▸ List.mem_append_right _ List.mem_cons_self) hkt
    · cases lead with
      | nil =>
        rw [List.append_nil] at hkind
        exact ⟨hkind, (List.cons.inj htext).2.symm⟩
      | cons b lead =>
        obtain ⟨rfl, -⟩ := List.cons.inj htext
        exact absurd (hkind ▸ List.mem_append_right _ List.mem_cons_self) hks
  refine ⟨Utf8.encode_injective hsplit.1, ?_, fun _ => Utf8.toList_injective hsplit.2⟩
  rw [hs, ht]

/-- The zero of a leaf does not stand in the kind of the other, so it stands in the
fingerprints. -/
theorem runsOver_of_leaf (hs : s.parts = []) (ht : t.parts ≠ []) (hkt : 0 ∉ Utf8.encode t.kind)
    (h : s.message = t.message) : s.RunsOver t := by
  rw [message_of_leaf hs, message_of_parts ht] at h
  rcases List.append_eq_append_iff.mp h with ⟨lead, hkind, hbytes⟩ | ⟨lead, hkind, hbytes⟩
  · cases lead with
    | nil =>
      rw [List.append_nil] at hkind
      have hnone : Utf8.encode s.kind = Utf8.encode t.kind ++ [] := by
        rw [hkind, List.append_nil]
      exact .leaf hs ht hnone hbytes.symm
    | cons b lead =>
      obtain ⟨rfl, -⟩ := List.cons.inj hbytes
      exact absurd (hkind ▸ List.mem_append_right _ List.mem_cons_self) hkt
  · exact .leaf hs ht hkind hbytes

theorem alike_or_runsOver_of_kind_eq_append {lead : List UInt8} (hs : s.parts ≠ [])
    (hkind : Utf8.encode s.kind = Utf8.encode t.kind ++ lead)
    (hbytes : (t.parts.map fingerprint).flatMap Fingerprint.bytes =
      lead ++ (s.parts.map fingerprint).flatMap Fingerprint.bytes) :
    s.Alike t ∨ s.RunsOver t := by
  obtain ⟨first, hparts, rfl⟩ := Fingerprint.exists_first_of_flatMap_bytes hbytes
  cases first with
  | nil =>
    refine .inl ⟨Utf8.encode_injective ?_, hparts.symm, fun hnil => absurd hnil hs⟩
    rw [hkind, List.flatMap_nil, List.append_nil]
  | cons f first => exact .inr (.shifted hs (List.cons_ne_nil _ _) hkind hparts)

/-- Of two kinds before fingerprints, one continues the other by some of these. -/
theorem alike_or_runsOver_of_parts (hs : s.parts ≠ []) (ht : t.parts ≠ [])
    (h : s.message = t.message) : s.Alike t ∨ s.RunsOver t ∨ t.RunsOver s := by
  rw [message_of_parts hs, message_of_parts ht] at h
  rcases List.append_eq_append_iff.mp h with ⟨lead, hkind, hbytes⟩ | ⟨lead, hkind, hbytes⟩
  · rcases alike_or_runsOver_of_kind_eq_append ht hkind hbytes with halike | hover
    · exact .inl ⟨halike.kind.symm, halike.parts.symm, fun hnil => absurd hnil hs⟩
    · exact .inr (.inr hover)
  · exact (alike_or_runsOver_of_kind_eq_append hs hkind hbytes).imp_right .inl

theorem message_eq_iff (hs : 0 ∉ Utf8.encode s.kind) (ht : 0 ∉ Utf8.encode t.kind) :
    s.message = t.message ↔ s.Alike t ∨ s.RunsOver t ∨ t.RunsOver s := by
  constructor
  · intro h
    by_cases hsp : s.parts = [] <;> by_cases htp : t.parts = []
    · exact .inl (alike_of_leaves hsp htp hs ht h)
    · exact .inr (.inl (runsOver_of_leaf hsp htp ht h))
    · exact .inr (.inr (runsOver_of_leaf htp hsp hs h.symm))
    · exact alike_or_runsOver_of_parts hsp htp h
  · rintro (h | h | h)
    · exact h.message_eq
    · exact h.message_eq
    · exact h.message_eq.symm

def shape : Subject → Shape
  | node n => n.shape
  | record t => t.shape

theorem shape_eq (s : Subject) : s.shape = .make s.kind s.text (s.parts.map shape) := by
  cases s with
  | node n =>
    obtain ⟨l, cs⟩ := n
    have hshapes : ∀ cs : List Node,
        Node.shapes cs = (cs.filter fun c => !c.label.extra).map Node.shape := by
      intro cs
      induction cs with
      | nil => rfl
      | cons c cs ih => by_cases h : c.label.extra = true <;> simp [Node.shapes, h, ih]
    rw [shape, Node.shape, hshapes, parts, List.map_map]
    rfl
  | record t =>
    obtain ⟨k, n, cs⟩ := t
    have hshapes : ∀ cs : List ImportTree, ImportTree.shapes cs = cs.map ImportTree.shape := by
      intro cs
      induction cs with
      | nil => rfl
      | cons c cs ih => rw [ImportTree.shapes, ih, List.map_cons]
    rw [shape, ImportTree.shape, hshapes, parts, List.map_map]
    rfl

theorem Alike.shape_eq_of_parts (h : s.Alike t) (hparts : s.parts.map shape = t.parts.map shape) :
    s.shape = t.shape := by
  rw [shape_eq s, shape_eq t, ← hparts, h.kind]
  by_cases hs : s.parts = []
  · rw [h.text hs]
  · have hempty : (s.parts.map shape).isEmpty = false := by simpa using hs
    rw [Shape.make, Shape.make, hempty]
    rfl

/-- `s` is a subject or has it somewhere below. -/
inductive Holds : Subject → Subject → Prop
  | self (s : Subject) : Holds s s
  | part {s p a : Subject} : p ∈ s.parts → Holds p a → Holds s a

/-- Two messages have one digest. -/
def Collide (a b : Subject) : Prop :=
  a.message ≠ b.message ∧ Blake2b.digest a.message = Blake2b.digest b.message

/-- One message was made from two structures. -/
def Confused (a b : Subject) : Prop := a.message = b.message ∧ ¬ a.Alike b

theorem size_lt_of_mem_parts {p : Subject} (h : p ∈ s.parts) : p.size < s.size := by
  have hle : ∀ ps : List Subject, p ∈ ps → p.size ≤ sizes ps := by
    intro ps hp
    induction ps with
    | nil => cases hp
    | cons q ps ih =>
      rw [sizes_cons]
      rcases List.mem_cons.mp hp with rfl | hp
      · omega
      · have := ih hp
        omega
  exact lt_of_le_of_lt (hle s.parts h) s.sizes_parts_lt

theorem map_shape_eq_or {bad : Prop} {ps qs : List Subject}
    (h : ∀ p ∈ ps, ∀ q ∈ qs, p.fingerprint = q.fingerprint → p.shape = q.shape ∨ bad)
    (hpq : ps.map fingerprint = qs.map fingerprint) : ps.map shape = qs.map shape ∨ bad := by
  induction ps generalizing qs with
  | nil => exact .inl (by rw [List.map_eq_nil_iff.mp hpq.symm])
  | cons p ps ih =>
    cases qs with
    | nil => cases hpq
    | cons q qs =>
      obtain ⟨hfirst, hrest⟩ := List.cons.inj hpq
      have hps := ih (fun x hx y hy => h x (List.mem_cons_of_mem _ hx) y (List.mem_cons_of_mem _ hy))
        hrest
      rcases h p List.mem_cons_self q List.mem_cons_self hfirst with hshape | hbad
      · exact hps.imp_left fun hshapes => by rw [List.map_cons, List.map_cons, hshape, hshapes]
      · exact .inr hbad

/-- Subjects with one fingerprint have one shape, unless something below them collides or is
confused. The induction goes down both at once, through pairs of parts with one
fingerprint. -/
theorem shape_eq_or_of_fingerprint_eq (h : s.fingerprint = t.fingerprint) :
    s.shape = t.shape ∨ ∃ a b, s.Holds a ∧ t.Holds b ∧ (Collide a b ∨ Confused a b) := by
  induction hn : s.size using Nat.strongRecOn generalizing s t with
  | ind n ih =>
    subst hn
    by_cases hm : s.message = t.message
    · by_cases halike : s.Alike t
      · have hpairs : ∀ p ∈ s.parts, ∀ q ∈ t.parts, p.fingerprint = q.fingerprint →
            p.shape = q.shape ∨ ∃ a b, s.Holds a ∧ t.Holds b ∧ (Collide a b ∨ Confused a b) := by
          intro p hp q hq hpq
          refine (ih p.size (size_lt_of_mem_parts hp) hpq rfl).imp_right ?_
          rintro ⟨a, b, ha, hb, hab⟩
          exact ⟨a, b, .part hp ha, .part hq hb, hab⟩
        exact (map_shape_eq_or hpairs halike.parts).imp_left halike.shape_eq_of_parts
      · exact .inr ⟨s, t, .self s, .self t, .inr ⟨hm, halike⟩⟩
    · exact .inr ⟨s, t, .self s, .self t, .inl ⟨hm, digest_eq_of_fingerprint_eq h⟩⟩

/-- Of kinds without a zero byte, equal messages come from subjects that are made alike, or
from two of which one kind runs over the fingerprints below the other. So subjects of
different shape share a fingerprint only if something below them collides under the digest,
or is confused before it gets there. -/
theorem message_fixes_structure_or_runs_over (s t : Subject) (hs : 0 ∉ Utf8.encode s.kind)
    (ht : 0 ∉ Utf8.encode t.kind) :
    (s.message = t.message ↔ s.Alike t ∨ s.RunsOver t ∨ t.RunsOver s) ∧
      (s.fingerprint = t.fingerprint → s.shape ≠ t.shape →
        ∃ a b, s.Holds a ∧ t.Holds b ∧ (Collide a b ∨ Confused a b)) :=
  ⟨message_eq_iff hs ht, fun h hne => (shape_eq_or_of_fingerprint_eq h).resolve_left hne⟩

/-- `//_ <=+` -/
def commentFile : Node :=
  .phrase 0 "source_file" "" "//_ <=+"
    [.node ⟨"line_comment", true, true, false, false, "", ⟨0, 0⟩, "//_ <=+".toUTF8, 1⟩
      [.token 2 "//"]]

/-- `mod ajkyhde;` -/
def moduleItem : Node :=
  .phrase 1 "mod_item" "" "mod ajkyhde;"
    [.token 2 "mod", .phrase 3 "identifier" "name" "ajkyhde" [], .token 4 ";"]

def moduleFile : Node := .phrase 0 "source_file" "" "mod ajkyhde;" [moduleItem]

def moduleLines : List ShapeLine :=
  [⟨"mod", "mod", [], 0x2d6deb7c096c8c00⟩, ⟨"identifier", "ajkyhde", [], 0x07204ca2457f2723⟩,
    ⟨";", ";", [], 0x083a4c4b079a245c⟩, ⟨"mod_item", "", [0, 1, 2], 0x002f2f5f203c3d2b⟩]

theorem moduleLines_correct : ShapeLine.allCorrect [] moduleLines = true := by decide +kernel

/-- The fingerprint of the module starts with a zero, and its other bytes are a comment. -/
theorem fingerprint_moduleItem : moduleItem.fingerprint = ⟨0x002f2f5f203c3d2b⟩ :=
  Node.fingerprint_of_line (i := 3) moduleLines_correct rfl rfl

theorem commentFile_runsOver : RunsOver (.node commentFile) (.node moduleFile) := by
  have hkind : Utf8.encode "source_file" = Utf8.encode "source_file" ++ [] :=
    (List.append_nil _).symm
  have hbytes : (Fingerprint.bytes ⟨0x002f2f5f203c3d2b⟩) = 0 :: "//_ <=+".toUTF8.toList := by
    decide +kernel
  refine .leaf rfl (List.cons_ne_nil _ _) hkind ?_
  show moduleItem.fingerprint.bytes ++ [] = _
  rw [fingerprint_moduleItem, hbytes, List.append_nil]
  rfl

/-- The two files have one message, since the kind of the first runs over into the second. -/
theorem message_fixes_structure_or_runs_over_at_files :
    (0 ∉ Utf8.encode "source_file") ∧
      (Subject.node commentFile).message = (Subject.node moduleFile).message := by
  have hkind : 0 ∉ Utf8.encode "source_file" := by decide +kernel
  exact ⟨hkind, (message_fixes_structure_or_runs_over (.node commentFile) (.node moduleFile) hkind
    hkind).1.mpr (.inr (.inl commentFile_runsOver))⟩

/-- A file with one comment and a file with one module have the same bytes hashed, although
only the second has anything below it that counts. -/
theorem message_does_not_fix_structure :
    ¬ ∀ s t : Subject, 0 ∉ Utf8.encode s.kind → 0 ∉ Utf8.encode t.kind →
      s.message = t.message → s.Alike t := by
  intro h
  have hkind : 0 ∉ Utf8.encode "source_file" := by decide +kernel
  have halike := h (.node commentFile) (.node moduleFile) hkind hkind
    commentFile_runsOver.message_eq
  exact absurd (halike.parts_eq_nil_iff.mp rfl) (List.cons_ne_nil _ _)

end Subject

end RustMetrics
