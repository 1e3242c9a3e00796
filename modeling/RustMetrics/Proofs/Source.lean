import Mathlib.Data.List.DropRight
import RustMetrics.Source

/-! How a broken file is refused. The search for a fault takes nodes from a stack and puts their
children there; it meets the nodes of the tree in their order, parents first, so that it
stops at the first faulty one. What is shown of a node that should not be there is its
first line. That there is one, and that it is not empty, comes from every line break being a
blank: once the blanks at the ends are gone, no break is left in front. -/

namespace RustMetrics

namespace Text

variable {s : List Char}

/-- The first line of a text that has other characters than blanks: it starts with the first of
them, and ends with the last of them or at a line break before it. -/
structure FirstLine (line text : List Char) : Prop where
  nonempty : line ≠ []
  unbroken : ∀ c ∈ line, isBreak c = false
  start : ∀ c, line.head? = some c → isBlank c = false
  place : ∃ before after, text = before ++ line ++ after ∧ (∀ c ∈ before, isBlank c = true) ∧
    ((∀ c ∈ after, isBlank c = true) ∧ (∀ c, line.getLast? = some c → isBlank c = false) ∨
      (∃ c rest, after = c :: rest ∧ isBreak c = true) ∧ ∃ c ∈ after, isBlank c = false)

theorem strip_eq_nil_iff : strip s = [] ↔ ∀ c ∈ s, isBlank c = true := by
  rw [show strip s = (s.dropWhile isBlank).rdropWhile isBlank from rfl, List.rdropWhile_eq_nil_iff]
  constructor
  · intro h c hc
    rw [← List.takeWhile_append_dropWhile (p := isBlank) (l := s), List.mem_append] at hc
    exact hc.elim List.mem_takeWhile_imp (h c)
  · intro h c hc
    exact h c ((List.dropWhile_suffix _).subset hc)

theorem exists_strip (s : List Char) : ∃ before after, s = before ++ strip s ++ after ∧
    (∀ c ∈ before, isBlank c = true) ∧ ∀ c ∈ after, isBlank c = true := by
  refine ⟨s.takeWhile isBlank, (s.dropWhile isBlank).rtakeWhile isBlank, ?_, ?_, ?_⟩
  · rw [List.append_assoc]
    show s = _ ++ ((s.dropWhile isBlank).rdropWhile isBlank ++ _)
    rw [List.rdropWhile_append_rtakeWhile, List.takeWhile_append_dropWhile]
  · exact fun c hc => List.mem_takeWhile_imp hc
  · exact fun c hc => List.mem_rtakeWhile_imp hc

theorem isBlank_of_head?_dropWhile {c : Char} (h : (s.dropWhile isBlank).head? = some c) :
    isBlank c = false := by
  have hnot := List.head?_dropWhile_not isBlank s
  rwa [h] at hnot

theorem isBlank_of_head?_strip {c : Char} (h : (strip s).head? = some c) : isBlank c = false := by
  obtain ⟨blanks, hblanks⟩ : strip s <+: s.dropWhile isBlank := List.rdropWhile_prefix isBlank _
  refine isBlank_of_head?_dropWhile (s := s) ?_
  rw [← hblanks, List.head?_append, h, Option.some_or]

theorem isBlank_of_getLast?_strip {c : Char} (h : (strip s).getLast? = some c) :
    isBlank c = false := by
  rw [strip, List.getLast?_reverse] at h
  exact isBlank_of_head?_dropWhile h

theorem isBreak_of_head?_strip {c : Char} (h : (strip s).head? = some c) : isBreak c = false := by
  by_contra hc
  have hblank := isBlank_of_isBreak (by simpa using hc)
  rw [isBlank_of_head?_strip h] at hblank
  cases hblank

/-- A text up to its first line break. -/
def line (s : List Char) : List Char := s.takeWhile fun c => !isBreak c

/-- A text from its first line break on. -/
def afterLine (s : List Char) : List Char := s.dropWhile fun c => !isBreak c

theorem line_append_afterLine (s : List Char) : line s ++ afterLine s = s :=
  List.takeWhile_append_dropWhile

theorem isBreak_of_mem_line {c : Char} (h : c ∈ line s) : isBreak c = false := by
  simpa using List.mem_takeWhile_imp h

theorem isBreak_of_afterLine {c : Char} {rest : List Char} (h : afterLine s = c :: rest) :
    isBreak c = true := by
  have hnot := List.head?_dropWhile_not (fun c => !isBreak c) s
  rw [show s.dropWhile (fun c => !isBreak c) = c :: rest from h] at hnot
  simpa using hnot

theorem head?_lines (s : List Char) :
    (lines s).head? = if s.isEmpty then none else some (line s) := by
  fun_induction lines s with
  | case1 => rfl
  | case2 rest ih => rfl
  | case3 c rest _ hc ih => simp [line, hc]
  | case4 c rest _ hc hrest ih =>
    cases rest with
    | nil => simp [line, hc]
    | cons d rest => simp [hrest] at ih
  | case5 c rest _ hc first more hrest ih =>
    cases rest with
    | nil => simp [hrest] at ih
    | cons d rest =>
      have hfirst : some first = some (line (d :: rest)) := by
        rw [hrest] at ih
        exact ih
      rw [Option.some.inj hfirst]
      simp [line, hc]

theorem head?_line_strip (s : List Char) : (line (strip s)).head? = (strip s).head? := by
  cases hstrip : strip s with
  | nil => rfl
  | cons c rest =>
    have hc : isBreak c = false := isBreak_of_head?_strip (s := s) (by rw [hstrip]; rfl)
    simp [line, hc]

/-- After the first line there is something to see, or the line ends where the text does. -/
theorem afterLine_strip_cases (s : List Char) :
    afterLine (strip s) = [] ∨ ∃ c ∈ afterLine (strip s), isBlank c = false := by
  cases hlast : (afterLine (strip s)).getLast? with
  | none => exact .inl (List.getLast?_eq_none_iff.mp hlast)
  | some c =>
    refine .inr ⟨c, List.mem_of_getLast? hlast, isBlank_of_getLast?_strip (s := s) ?_⟩
    rw [← line_append_afterLine (strip s), List.getLast?_append, hlast, Option.some_or]

theorem firstLine_strip (h : strip s ≠ []) : FirstLine (line (strip s)) s := by
  obtain ⟨before, after, hs, hbefore, hafter⟩ := exists_strip s
  have hhead := head?_line_strip s
  refine ⟨?_, fun c => isBreak_of_mem_line, fun c hc => isBlank_of_head?_strip (hhead ▸ hc), ?_⟩
  · intro hnil
    rw [hnil] at hhead
    exact h (List.head?_eq_none_iff.mp hhead.symm)
  refine ⟨before, afterLine (strip s) ++ after, ?_, hbefore, ?_⟩
  · rw [List.append_assoc, ← List.append_assoc (line _), line_append_afterLine,
      ← List.append_assoc]
    exact hs
  rcases afterLine_strip_cases s with hend | ⟨c, hc, hseen⟩
  · have hline := line_append_afterLine (strip s)
    rw [hend, List.append_nil] at hline
    rw [hend, List.nil_append, hline]
    exact .inl ⟨hafter, fun c => isBlank_of_getLast?_strip⟩
  · obtain ⟨d, more, hmore⟩ := List.exists_cons_of_ne_nil (List.ne_nil_of_mem hc)
    refine .inr ⟨⟨d, more ++ after, ?_, isBreak_of_afterLine hmore⟩, c, ?_, hseen⟩
    · rw [hmore, List.cons_append]
    · exact List.mem_append_left after hc

theorem firstLine?_eq_none_iff {text : String} :
    firstLine? text = none ↔ ∀ c ∈ text.toList, isBlank c = true := by
  rw [firstLine?, Option.map_eq_none_iff, head?_lines, ← strip_eq_nil_iff]
  cases strip text.toList <;> simp

theorem firstLine_of_eq_some {text line : String} (h : firstLine? text = some line) :
    FirstLine line.toList text.toList := by
  rw [firstLine?, head?_lines] at h
  by_cases hstrip : strip text.toList = []
  · rw [hstrip] at h
    cases h
  · rw [if_neg (by simpa using hstrip), Option.map_some, Option.some.injEq] at h
    rw [← h, String.toList_ofList]
    exact firstLine_strip hstrip

end Text

/-- Places in a file are in order by lines, and on a line by bytes. -/
instance : LE Position where
  le p q := p.row < q.row ∨ p.row = q.row ∧ p.column ≤ q.column

instance : DecidableLE Position := fun p q =>
  inferInstanceAs (Decidable (p.row < q.row ∨ p.row = q.row ∧ p.column ≤ q.column))

theorem Position.le_refl (p : Position) : p ≤ p := .inr ⟨rfl, Nat.le_refl _⟩

namespace Node

variable {n root : Node} {stack : List Node}

theorem preorder_eq (n : Node) : n.preorder = n :: n.children.flatMap preorder := by
  cases n
  exact preorder_node _ _

/-- The search meets the nodes of the trees on the stack in their order. -/
theorem firstFaulty?_eq (stack : List Node) :
    firstFaulty? stack = (stack.flatMap preorder).find? isFaulty := by
  fun_induction firstFaulty? stack with
  | case1 => rfl
  | case2 n rest hn =>
    rw [List.flatMap_cons, preorder_eq, List.cons_append, List.find?_cons_of_pos hn]
  | case3 n rest hn ih =>
    rw [List.flatMap_cons, preorder_eq, List.cons_append, List.find?_cons_of_neg hn, ih,
      List.flatMap_append]

/-- A faulty node with no faulty one before it, in the order of parents before children and left
before right. -/
def FirstFault (root n : Node) : Prop :=
  ∃ before after, root.preorder = before ++ n :: after ∧
    (∀ b ∈ before, b.isFaulty = false) ∧ n.isFaulty = true

theorem firstFaulty?_eq_some_iff : firstFaulty? [root] = some n ↔ root.FirstFault n := by
  rw [firstFaulty?_eq, List.flatMap_singleton, List.find?_eq_some_iff_append]
  constructor
  · rintro ⟨hn, before, after, hsplit, hbefore⟩
    exact ⟨before, after, hsplit, by simpa using hbefore, hn⟩
  · rintro ⟨before, after, hsplit, hbefore, hn⟩
    exact ⟨hn, before, after, hsplit, by simpa using hbefore⟩

theorem firstFaulty?_eq_none_iff :
    firstFaulty? [root] = none ↔ ∀ n ∈ root.preorder, n.isFaulty = false := by
  rw [firstFaulty?_eq, List.flatMap_singleton, List.find?_eq_none]
  simp only [Bool.not_eq_true]

/-- Where nodes start in the order of the tree, no faulty node starts before the first one. -/
theorem FirstFault.start_le (h : root.FirstFault n)
    (hsorted : (root.preorder.map fun m => m.label.start).Pairwise (· ≤ ·)) {m : Node}
    (hm : m ∈ root.preorder) (hfaulty : m.isFaulty = true) : n.label.start ≤ m.label.start := by
  obtain ⟨before, after, hsplit, hbefore, _⟩ := h
  rw [hsplit, List.map_append, List.map_cons, List.pairwise_append, List.pairwise_cons] at hsorted
  rw [hsplit, List.mem_append, List.mem_cons] at hm
  rcases hm with hm | rfl | hm
  · rw [hbefore m hm] at hfaulty
    cases hfaulty
  · exact Position.le_refl _
  · exact hsorted.2.1.1 _ (List.mem_map_of_mem hm)

/-- What is to be said of a faulty node: what should be there, or the first line of what should
not, unless nothing is to be seen. -/
structure Describes (n : Node) (detail : String) : Prop where
  missing : n.label.missing = true → detail = "expected " ++ Text.quoted n.kind
  blank : n.label.missing = false →
    (detail = "syntax error" ↔ ∀ c ∈ (Utf8.lossy n.text).toList, Text.isBlank c = true)
  line : n.label.missing = false →
    (∃ c ∈ (Utf8.lossy n.text).toList, Text.isBlank c = false) →
    ∃ line : String, Text.FirstLine line.toList (Utf8.lossy n.text).toList ∧
      detail = "unexpected " ++ Text.quoted line

theorem unexpected_ne (line : String) : "unexpected " ++ line ≠ "syntax error" := by
  intro h
  have hlist := congrArg String.toList h
  simp at hlist

theorem describes_faultText (n : Node) : n.Describes n.faultText := by
  rw [faultText]
  by_cases hmissing : n.label.missing = true
  · rw [if_pos hmissing]
    exact ⟨fun _ => rfl, by simp [hmissing], by simp [hmissing]⟩
  rw [if_neg hmissing]
  cases hline : Text.firstLine? (Utf8.lossy n.text) with
  | none =>
    have hblank := Text.firstLine?_eq_none_iff.mp hline
    refine ⟨fun h => absurd h hmissing, fun _ => by simpa using hblank, ?_⟩
    rintro _ ⟨c, hc, hnot⟩
    rw [hblank c hc] at hnot
    cases hnot
  | some line =>
    have hblank : ¬ ∀ c ∈ (Utf8.lossy n.text).toList, Text.isBlank c = true := by
      rw [← Text.firstLine?_eq_none_iff, hline]
      simp
    refine ⟨fun h => absurd h hmissing, fun _ => ?_, fun _ _ => ?_⟩
    · exact ⟨fun h => absurd h (unexpected_ne _), fun h => absurd h hblank⟩
    · exact ⟨line, Text.firstLine_of_eq_some hline, rfl⟩

end Node

namespace Source

variable {s : Source}

theorem check_of_broken (h : s.broken = true) : s.check = .error s.failure := by
  rw [check, if_pos h]

theorem check_of_not_broken (h : s.broken = false) : s.check = .ok s := by
  rw [check, if_neg (by simp [h])]

theorem exists_failure_eq (s : Source) :
    ∃ line column detail, s.failure = .rejected s.path line column detail := by
  rw [failure]
  cases Node.firstFaulty? [s.root] with
  | none => exact ⟨_, _, _, rfl⟩
  | some n => exact ⟨_, _, _, rfl⟩

/-- A file is refused exactly if it is broken, and then at the first faulty node of its tree, which
is described; if there is none, the refusal names no place. -/
theorem refused_at_first_fault (s : Source) :
    ((∃ path line column detail, s.check = .error (.rejected path line column detail)) ↔
      s.broken = true) ∧
    (s.broken = false → s.check = .ok s) ∧
    (s.broken = true →
      (∃ n detail, s.root.FirstFault n ∧
        s.check = .error (.rejected s.path (some (n.label.start.row + 1))
          (some (n.label.start.column + 1)) detail) ∧
        n.Describes detail ∧
        ((s.root.preorder.map fun m => m.label.start).Pairwise (· ≤ ·) →
          ∀ m ∈ s.root.preorder, m.isFaulty = true → n.label.start ≤ m.label.start)) ∨
      (∀ n ∈ s.root.preorder, n.isFaulty = false) ∧
        s.check = .error (.rejected s.path none none "syntax error")) := by
  refine ⟨⟨?_, ?_⟩, check_of_not_broken, ?_⟩
  · rintro ⟨path, line, column, detail, h⟩
    by_contra hbroken
    rw [check_of_not_broken (by simpa using hbroken)] at h
    cases h
  · intro h
    obtain ⟨line, column, detail, hfailure⟩ := s.exists_failure_eq
    exact ⟨_, line, column, detail, hfailure ▸ check_of_broken h⟩
  · intro h
    rw [check_of_broken h, failure]
    cases hfirst : Node.firstFaulty? [s.root] with
    | none => exact .inr ⟨Node.firstFaulty?_eq_none_iff.mp hfirst, rfl⟩
    | some n =>
      have hn := Node.firstFaulty?_eq_some_iff.mp hfirst
      exact .inl ⟨n, _, hn, rfl, n.describes_faultText, fun hsorted m hm => hn.start_le hsorted hm⟩

/-- A file with a fault inside of another, which starts on a line that ends at U+2028. -/
def twoLines : Source where
  path := "bad.rs"
  bytes := "x y\u2028z".toUTF8
  tree := .ofDump "x y\u2028z".toUTF8
    [⟨"source_file", "n", "", 0, 7, 1⟩, ⟨"ERROR", "nxe", "", 0, 7, 4⟩,
      ⟨"identifier", "n", "", 0, 1, 0⟩, ⟨"identifier", "n", "", 2, 3, 0⟩,
      ⟨"ERROR", "ne", "", 3, 6, 0⟩, ⟨"identifier", "n", "", 6, 7, 0⟩]
  broken := true

theorem refused_at_first_fault_in_twoLines :
    twoLines.broken = true ∧
    (twoLines.root.preorder.map fun m => m.label.start).Pairwise (· ≤ ·) ∧
    twoLines.failure.message = "bad.rs:1:1: unexpected 'x y'" ∧
    ∃ n detail, twoLines.root.FirstFault n ∧
      twoLines.check = .error (.rejected "bad.rs" (some (n.label.start.row + 1))
        (some (n.label.start.column + 1)) detail) ∧
      n.Describes detail ∧
      ∀ m ∈ twoLines.root.preorder, m.isFaulty = true → n.label.start ≤ m.label.start := by
  have hsorted : (twoLines.root.preorder.map fun m => m.label.start).Pairwise (· ≤ ·) := by
    decide +kernel
  have hfaulty : ¬ ∀ n ∈ twoLines.root.preorder, n.isFaulty = false := by decide +kernel
  refine ⟨rfl, hsorted, by decide +kernel, ?_⟩
  rcases (refused_at_first_fault twoLines).2.2 rfl with ⟨n, detail, hn, hcheck, hd, hle⟩ | ⟨hnone, _⟩
  · exact ⟨n, detail, hn, hcheck, hd, hle hsorted⟩
  · exact absurd hnone hfaulty

end Source

end RustMetrics
