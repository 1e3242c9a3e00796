import Mathlib.Data.List.Nodup
import RustMetrics.Fingerprint.Cache
import RustMetrics.Node.Listing
import RustMetrics.Proofs.Fingerprint.Bytes
import RustMetrics.Proofs.Fingerprint.Shape

/-! Cached fingerprints are the plain ones. An entry is kept under the index of its
node, so the statement rests on indices being different within one tree; import
records are kept under themselves and need no such thing. An earlier query can
have left any part of what a later one needs, so the invariant is about entries
and not about queries: each is the fingerprint of the one subject that has its
key. -/

namespace RustMetrics

namespace Node

theorem mem_preorder_self (n : Node) : n ∈ n.preorder := by
  obtain ⟨l, cs⟩ := n
  rw [preorder_node]
  exact List.mem_cons_self

theorem mem_preorder_of_mem_children {c n : Node} (hc : c ∈ n.children) (root : Node)
    (h : n ∈ root.preorder) : c ∈ root.preorder := by
  induction hr : root.size using Nat.strongRecOn generalizing root with
  | ind k ih =>
    obtain ⟨l, cs⟩ := root
    rw [preorder_node] at h ⊢
    refine List.mem_cons_of_mem _ ?_
    rcases List.mem_cons.mp h with rfl | h
    · exact List.mem_flatMap.mpr ⟨c, hc, mem_preorder_self c⟩
    · obtain ⟨d, hd, hn⟩ := List.mem_flatMap.mp h
      have hlt : d.size < k := by
        rw [← hr]
        exact Nat.lt_succ_of_le (size_le_sizes_of_mem hd)
      exact List.mem_flatMap.mpr ⟨d, hd, ih d.size hlt d hn rfl⟩

end Node

/-- An index names one node of a tree. -/
theorem SyntaxTree.eq_of_index_eq (tree : SyntaxTree) {m n : Node}
    (hm : m ∈ tree.root.preorder) (hn : n ∈ tree.root.preorder)
    (h : m.label.index = n.label.index) : m = n := by
  have hd := tree.distinct
  rw [Node.labels, List.map_map] at hd
  exact List.inj_on_of_nodup_map hd hm hn h

namespace Subject

/-- The subjects of a tree are its nodes and all import records. -/
def Within (tree : SyntaxTree) : Subject → Prop
  | node n => n ∈ tree.root.preorder
  | record _ => True

variable {tree : SyntaxTree} {s t p : Subject}

theorem Within.part (h : s.Within tree) (hp : p ∈ s.parts) : p.Within tree := by
  cases s with
  | node n =>
    obtain ⟨c, hc, rfl⟩ := List.mem_map.mp hp
    exact Node.mem_preorder_of_mem_children (List.mem_of_mem_filter hc) tree.root h
  | record t =>
    obtain ⟨c, _, rfl⟩ := List.mem_map.mp hp
    trivial

/-- A key names one subject of a tree. -/
theorem eq_of_key_eq (hs : s.Within tree) (ht : t.Within tree) (h : s.key = t.key) : s = t := by
  cases s with
  | node n =>
    cases t with
    | node m => rw [tree.eq_of_index_eq hs ht (Key.index.inj h)]
    | record _ => cases h
  | record u =>
    cases t with
    | node m => cases h
    | record v => rw [Key.record.inj h]

end Subject

namespace Cache

/-- Every entry of the cache is kept for a subject of the tree, and is its fingerprint. -/
structure Sound (tree : SyntaxTree) (cache : Cache) : Prop where
  keyed : ∀ k, cache.Has k → ∃ s : Subject, s.Within tree ∧ s.key = k
  right : ∀ s : Subject, s.Within tree → ∀ f, cache.get? s = some f → f = s.fingerprint

variable {tree : SyntaxTree} {cache : Cache} {s : Subject} {f : Fingerprint}

theorem sound_empty (tree : SyntaxTree) : Sound tree empty := by
  refine ⟨fun k hk => absurd hk Std.HashMap.not_mem_empty, ?_⟩
  intro s _ f h
  simp [empty, get?] at h

theorem get?_insert (cache : Cache) (s t : Subject) (f : Fingerprint) :
    (cache.insert s f).get? t = if s.key = t.key then some f else cache.get? t := by
  simp only [get?, insert, Std.HashMap.getElem?_insert, beq_iff_eq]

theorem Sound.insert (h : Sound tree cache) (hs : s.Within tree) :
    Sound tree (cache.insert s s.fingerprint) := by
  refine ⟨?_, ?_⟩
  · intro k hk
    rcases has_insert.mp hk with hk | hk
    · exact ⟨s, hs, hk⟩
    · exact h.keyed k hk
  · intro t ht f hf
    rw [get?_insert] at hf
    split at hf
    · next hk =>
      rw [← Subject.eq_of_key_eq hs ht hk]
      exact (Option.some.inj hf).symm
    · exact h.right t ht f hf

theorem Sound.mapM_get? {subjects : List Subject} {fs : List Fingerprint} (h : Sound tree cache)
    (hw : ∀ s ∈ subjects, s.Within tree) (hfs : subjects.mapM cache.get? = some fs) :
    fs = subjects.map Subject.fingerprint := by
  induction subjects generalizing fs with
  | nil => exact (Option.some.inj hfs).symm
  | cons s subjects ih =>
    rw [List.mapM_cons] at hfs
    obtain ⟨f, hf, hfs⟩ := Option.bind_eq_some_iff.mp hfs
    obtain ⟨gs, hgs, hfs⟩ := Option.bind_eq_some_iff.mp hfs
    cases hfs
    rw [h.right s (hw s List.mem_cons_self) f hf,
      ih (fun t ht => hw t (List.mem_cons_of_mem _ ht)) hgs, List.map_cons]

theorem Sound.assemble (h : Sound tree cache) (hs : s.Within tree)
    (hf : cache.assemble s = some f) : f = s.fingerprint := by
  obtain ⟨fs, hfs, rfl⟩ := Option.map_eq_some_iff.mp hf
  rw [h.mapM_get? (fun p hp => hs.part hp) hfs, s.fingerprint_eq]

namespace Query

/-- The cache of a query is right about the tree, and what is on its stack belongs there. -/
structure Faithful (tree : SyntaxTree) (q : Query) : Prop where
  cache : q.cache.Sound tree
  stack : ∀ e ∈ q.stack, e.1.Within tree

theorem Faithful.next {q u : Query} (h : q.Faithful tree) (hs : q.step = .next u) :
    u.Faithful tree := by
  have hm := step_moves q
  rw [hs] at hm
  cases hm with
  | known hst _ => exact ⟨h.cache, fun e he => h.stack e (hst ▸ List.mem_cons_of_mem _ he)⟩
  | @opened s rest hst _ =>
    have hw : s.Within tree := h.stack (s, false) (hst ▸ List.mem_cons_self)
    refine ⟨h.cache, ?_⟩
    intro e he
    rcases List.mem_append.mp he with he | he
    · obtain ⟨p, hp, rfl⟩ := List.mem_map.mp he
      exact hw.part hp
    · rcases List.mem_cons.mp he with rfl | he
      · exact hw
      · exact h.stack e (hst ▸ List.mem_cons_of_mem _ he)
  | @assembled s rest f hst _ ha =>
    have hw : s.Within tree := h.stack (s, true) (hst ▸ List.mem_cons_self)
    have hf := h.cache.assemble hw ha
    subst hf
    exact ⟨h.cache.insert hw, fun e he => h.stack e (hst ▸ List.mem_cons_of_mem _ he)⟩

theorem Faithful.run {q : Query} (h : q.Faithful tree) (hr : q.run = some cache) :
    cache.Sound tree := by
  fun_induction Query.run q with
  | case1 q cache' hs =>
    have hm := step_moves q
    rw [hs] at hm
    cases hm
    cases hr
    exact h.cache
  | case2 q u hs ih => exact ih (h.next hs) hr
  | case3 q hs => cases hr

end Query

/-- A query from a sound cache gives the plain fingerprint and a sound cache. -/
theorem Sound.query (h : Sound tree cache) (hs : s.Within tree) :
    ∃ cache', cache.query s = some (s.fingerprint, cache') ∧ cache'.Sound tree := by
  obtain ⟨⟨f, cache'⟩, hq⟩ := Option.isSome_iff_exists.mp (query_isSome cache s)
  have hq' := hq
  rw [Cache.query] at hq'
  split at hq'
  · next g hg =>
    cases hq'
    exact ⟨cache, hq.trans (by rw [h.right s hs f hg]), h⟩
  · obtain ⟨c, hr, hq'⟩ := Option.bind_eq_some_iff.mp hq'
    obtain ⟨g, hg, hq'⟩ := Option.bind_eq_some_iff.mp hq'
    cases hq'
    have hstart : Query.Faithful tree ⟨cache, [(s, false)]⟩ :=
      ⟨h, fun e he => List.mem_singleton.mp he ▸ hs⟩
    have hc := hstart.run hr
    exact ⟨cache', hq.trans (by rw [hc.right s hs f hg]), hc⟩

theorem ofNode_sound (n : Node) (cache : Cache) (h : Sound tree cache)
    (hn : n ∈ tree.root.preorder) :
    (cache.ofNode n).1 = n.fingerprint ∧ Sound tree (cache.ofNode n).2 := by
  obtain ⟨cache', hq, hc⟩ := h.query (s := .node n) hn
  simp only [ofNode, hq, Option.get_some]
  exact ⟨rfl, hc⟩

theorem ofImport_sound (t : ImportTree) (cache : Cache) (h : Sound tree cache) :
    (cache.ofImport t).1 = t.fingerprint ∧ Sound tree (cache.ofImport t).2 := by
  obtain ⟨cache', hq, hc⟩ := h.query (s := .record t) trivial
  simp only [ofImport, hq, Option.get_some]
  exact ⟨rfl, hc⟩

/-- Fingerprints asked for one after another. -/
def queries (cache : Cache) : List Subject → Option (List Fingerprint × Cache)
  | [] => some ([], cache)
  | s :: rest => do
    let (f, cache) ← cache.query s
    let (fs, cache) ← queries cache rest
    return (f :: fs, cache)

theorem Sound.queries {subjects : List Subject} (h : Sound tree cache)
    (hw : ∀ s ∈ subjects, s.Within tree) :
    ∃ cache', cache.queries subjects = some (subjects.map Subject.fingerprint, cache') ∧
      cache'.Sound tree := by
  induction subjects generalizing cache with
  | nil => exact ⟨cache, rfl, h⟩
  | cons s rest ih =>
    obtain ⟨cache₁, hq, h₁⟩ := h.query (hw s List.mem_cons_self)
    obtain ⟨cache₂, hqs, h₂⟩ := ih h₁ fun t ht => hw t (List.mem_cons_of_mem _ ht)
    exact ⟨cache₂, by rw [Cache.queries, hq]; simp [hqs], h₂⟩

/-- However the nodes of one tree and import records are asked for, each time nothing is
missing and the answer is the plain fingerprint; and all that stays in the cache is the
fingerprint of the subject it is kept for. The plain fingerprint is the hash of the kind, of a
zero byte and the text where there are no parts, and of the fingerprints of the parts. Each of
these is hashed as eight bytes, the highest first, and the bytes of a hash are those of the
fingerprint. -/
theorem queries_give_fingerprints (tree : SyntaxTree) (subjects : List Subject)
    (h : ∀ s ∈ subjects, s.Within tree) :
    (∃ cache, empty.queries subjects = some (subjects.map Subject.fingerprint, cache) ∧
      cache.Sound tree) ∧
    (∀ s : Subject, s.fingerprint = .ofBytes (Blake2b.digest (Utf8.encode s.kind ++
      (if s.parts.isEmpty then 0 :: s.text.toList else []) ++
      s.parts.flatMap fun p => p.fingerprint.bytes))) ∧
    (∀ bytes, (Fingerprint.ofBytes (Blake2b.digest bytes)).bytes = Blake2b.digest bytes) ∧
    ∀ f : Fingerprint, f.bytes.length = 8 ∧
      f.word.toNat = Nat.ofDigits 256 (f.bytes.reverse.map UInt8.toNat) := by
  refine ⟨(sound_empty tree).queries h, Subject.fingerprint_eq_digest, ?_, ?_⟩
  · exact fun bytes => Fingerprint.bytes_ofBytes (Blake2b.length_digest bytes)
  · exact fun f => ⟨f.length_bytes, f.toNat_word⟩

/-- `/**/ struct S;` -/
def commentedStruct : SyntaxTree where
  root := .phrase 0 "source_file" "" "/**/ struct S;"
    [.node ⟨"block_comment", true, true, false, false, "", ⟨0, 1⟩, "/**/".toUTF8, 1⟩ [],
      .phrase 2 "struct_item" "" "struct S;"
        [.token 3 "struct", .phrase 4 "type_identifier" "name" "S" [], .token 5 ";"]]
  distinct := by decide +kernel

/-- `{a, a}` -/
def twice : ImportTree := .node .group "" [.node .name "a" [], .node .name "a" []]

/-- A name, records with an equal part, the file around the name, and the name again. -/
theorem queries_of_commentedStruct :
    ∃ cache, empty.queries [.node (.phrase 4 "type_identifier" "name" "S" []), .record twice,
        .node commentedStruct.root, .node (.phrase 4 "type_identifier" "name" "S" [])] =
      some ([⟨0xf2e3f608957a77a8⟩, ⟨0x84cb57ba2c7fb90e⟩, ⟨0x9666306b083ec6a0⟩,
        ⟨0xf2e3f608957a77a8⟩], cache) ∧
      cache.Sound commentedStruct := by
  have hname : Node.phrase 4 "type_identifier" "name" "S" [] ∈ commentedStruct.root.preorder :=
    List.mem_of_getElem? (i := 4) rfl
  have hvalues : (Node.phrase 4 "type_identifier" "name" "S" []).fingerprint =
      ⟨0xf2e3f608957a77a8⟩ ∧ twice.fingerprint = ⟨0x84cb57ba2c7fb90e⟩ ∧
      commentedStruct.root.fingerprint = ⟨0x9666306b083ec6a0⟩ := by decide +kernel
  rw [← hvalues.1, ← hvalues.2.1, ← hvalues.2.2]
  refine (queries_give_fingerprints commentedStruct _ ?_).1
  intro s hs
  simp only [List.mem_cons, List.not_mem_nil, or_false] at hs
  rcases hs with rfl | rfl | rfl | rfl
  · exact hname
  · trivial
  · exact Node.mem_preorder_self _
  · exact hname

end Cache

end RustMetrics
