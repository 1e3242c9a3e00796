import RustMetrics.Import.Reading
import RustMetrics.Node.Expression

/-! How many records an import has along its branches: at most as many as the syntax
it was read from has nodes. Segments and aliases are records too, but nothing
branches to them. -/

namespace RustMetrics.ImportTree

mutual

/-- The records met along branches, the first one included. -/
def steps : ImportTree → Nat
  | node .path _ cs => match cs with
    | [] => 1
    | _ :: rest => stepsAll rest + 1
  | node .group _ cs => stepsAll cs + 1
  | _ => 1

def stepsAll : List ImportTree → Nat
  | [] => 0
  | t :: ts => steps t + stepsAll ts

end

theorem steps_eq (t : ImportTree) : t.steps = stepsAll t.branches + 1 := by
  obtain ⟨k, n, cs⟩ := t
  cases k <;> try rfl
  cases cs <;> rfl

theorem steps_under (ss : List String) (t : ImportTree) :
    (under ss t).steps = ss.length + t.steps := by
  induction ss with
  | nil => simp [under]
  | cons s ss ih =>
    have h : (under (s :: ss) t).steps = (under ss t).steps + 1 := rfl
    rw [h, ih, List.length_cons]
    omega

theorem length_segmentsOf_le {n : Node} {ss : List String} (h : segmentsOf n = .ok ss) :
    ss.length ≤ n.size := by
  induction hn : n.size using Nat.strongRecOn generalizing n ss with
  | ind size ih =>
    have hpos := Node.size_pos n
    rw [segmentsOf] at h
    split at h
    · cases hl : Node.requiredText (n.child? "name") with
      | error e => simp [hl, bind, Except.bind] at h
      | ok last =>
        simp only [hl, bind, Except.bind] at h
        split at h
        · cases h
          simp only [List.length_singleton]
          omega
        · next path hp =>
          have hlt := Node.size_child?_lt hp
          cases hr : segmentsOf path with
          | error e => simp [hr] at h
          | ok rest =>
            simp only [hr, pure, Except.pure, Except.ok.injEq] at h
            subst h
            have := ih path.size (by omega) hr rfl
            simp only [List.length_cons]
            omega
    · cases hd : decoded n.text with
      | error e => simp [hd, bind, Except.bind] at h
      | ok s =>
        simp only [hd, bind, Except.bind, pure, Except.pure, Except.ok.injEq] at h
        subst h
        simp only [List.length_singleton]
        omega

theorem length_segments_le {path : Option Node} {ss : List String}
    (h : segments path = .ok ss) : ss.length ≤ Node.sizes path.toList := by
  cases path with
  | none =>
    simp only [segments, Except.ok.injEq] at h
    simp [← h]
  | some n =>
    simp only [segments] at h
    cases hs : segmentsOf n with
    | error e => simp [hs, Except.map] at h
    | ok rs =>
      simp only [hs, Except.map, Except.ok.injEq] at h
      have := length_segmentsOf_le hs
      simpa [← h] using this

theorem steps_withPath_le {path : Option Node} {rest t : ImportTree}
    (h : withPath path rest = .ok t) : t.steps ≤ Node.sizes path.toList + rest.steps := by
  simp only [withPath] at h
  cases hs : segments path with
  | error e => simp [hs, Except.map] at h
  | ok ss =>
    simp only [hs, Except.map, Except.ok.injEq] at h
    subst h
    rw [steps_under]
    have := length_segments_le hs
    omega

theorem steps_renamed_le {ss : List String} {newName : String} {t : ImportTree}
    (h : renamed ss newName = .ok t) : t.steps ≤ ss.length := by
  simp only [renamed] at h
  split at h
  · cases h
  · next last hl =>
    simp only [Except.ok.injEq] at h
    subst h
    have hne : ss ≠ [] := by
      intro hs
      simp [hs] at hl
    have := List.length_pos_iff.mpr hne
    rw [steps_under, List.length_dropLast]
    simp only [steps]
    omega

theorem sizes_head?_phrases_lt (n : Node) : Node.sizes n.phrases.head?.toList < n.size :=
  Nat.lt_of_le_of_lt (Node.sizes_head?_le _) (Node.sizes_phrases_lt n)

theorem sizes_child?_lt (n : Node) (field : String) :
    Node.sizes (n.child? field).toList < n.size := by
  cases h : n.child? field with
  | none => simpa using Node.size_pos n
  | some c => simpa using Node.size_child?_lt h

/-- A list and the path before it are different children. -/
theorem size_list_path_lt {n list : Node} (h : n.child? "list" = some list) :
    list.size + Node.sizes (n.child? "path").toList < n.size := by
  have hs := Node.sizes_heldAs_le n.children ["list", "path"] (by decide)
  rw [Node.size_eq n]
  simp only [Node.child?] at *
  cases hp : Node.heldAs n.children "path" <;> simp [h, hp] at hs ⊢ <;> omega

theorem stepsAll_mapM_le {m : Node} (cs : List { c // c ∈ m.phrases })
    (hread : ∀ c ∈ cs, ∀ t, read c.1 = .ok t → t.steps ≤ c.1.size) {ts : List ImportTree}
    (h : cs.mapM (fun c => read c.1) = .ok ts) :
    stepsAll ts ≤ Node.sizes (cs.map Subtype.val) := by
  induction cs generalizing ts with
  | nil =>
    simp only [List.mapM_nil, pure, Except.pure, Except.ok.injEq] at h
    simp [← h, stepsAll]
  | cons c cs ih =>
    rw [List.mapM_cons] at h
    cases hc : read c.1 with
    | error e => simp [hc, bind, Except.bind] at h
    | ok t =>
      simp only [hc, bind, Except.bind] at h
      cases hcs : cs.mapM (fun c => read c.1) with
      | error e => simp [hcs] at h
      | ok us =>
        simp only [hcs, pure, Except.pure, Except.ok.injEq] at h
        subst h
        have h₁ := hread c (by simp) t hc
        have h₂ := ih (fun c hm => hread c (by simp [hm])) hcs
        simp only [stepsAll, List.map_cons, Node.sizes_cons]
        omega

/-- Reading makes at most as many records along branches as there are nodes. -/
theorem steps_read_le {n : Node} {t : ImportTree} (h : read n = .ok t) : t.steps ≤ n.size := by
  induction hn : n.size using Nat.strongRecOn generalizing n t with
  | ind size ih =>
    subst hn
    have hpos := Node.size_pos n
    rw [read] at h
    split at h
    · split at h
      · cases h
      · next argument ha =>
        have hlt := Node.size_child?_lt ha
        have := ih argument.size hlt h rfl
        omega
    · cases hl : Node.requiredText (n.child? "name") with
      | error e => simp [hl, bind, Except.bind] at h
      | ok last =>
        simp only [hl, bind, Except.bind] at h
        have := steps_withPath_le h
        have hlt := sizes_child?_lt n "path"
        simp only [steps] at this
        omega
    · cases hs : segments (n.child? "path") with
      | error e => simp [hs, bind, Except.bind] at h
      | ok ss =>
        simp only [hs, bind, Except.bind] at h
        cases hal : Node.requiredText (n.child? "alias") with
        | error e => simp [hal] at h
        | ok newName =>
          simp only [hal] at h
          have h₁ := steps_renamed_le h
          have h₂ := length_segments_le hs
          have hlt := sizes_child?_lt n "path"
          omega
    · have h₁ := steps_withPath_le h
      have hlt := sizes_head?_phrases_lt n
      simp only [steps] at h₁
      omega
    · split at h
      · cases h
      · next list hlist =>
        have hlt := size_list_path_lt hlist
        cases hg : read list with
        | error e => simp [hg, bind, Except.bind] at h
        | ok group =>
          simp only [hg, bind, Except.bind] at h
          have h₁ := steps_withPath_le h
          have h₂ := ih list.size (by omega) hg rfl
          omega
    · cases hm : n.phrases.attach.mapM (fun c => read c.1) with
      | error e => simp [hm, bind, Except.bind] at h
      | ok ts =>
        simp only [hm, bind, Except.bind, pure, Except.pure, Except.ok.injEq] at h
        subst h
        have hlt := Node.sizes_phrases_lt n
        have h₁ := stepsAll_mapM_le n.phrases.attach (fun c _ t ht =>
          ih c.1.size
            (Nat.lt_of_le_of_lt (Node.size_le_sizes_of_mem c.2) hlt) ht rfl) hm
        rw [List.attach_map_subtype_val] at h₁
        simp only [steps]
        omega
    · cases hd : decoded n.text with
      | error e => simp [hd, bind, Except.bind] at h
      | ok s =>
        simp only [hd, bind, Except.bind, pure, Except.pure, Except.ok.injEq] at h
        subst h
        simp only [steps]
        omega

end RustMetrics.ImportTree
