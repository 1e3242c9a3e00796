import Mathlib.Data.List.Forall2
import RustMetrics.Proofs.Json.Printed
import RustMetrics.Proofs.Report.Agreement

/-! The JSON form of reports loses nothing. The text determines the document, since it can be
read back, and the document determines what the reports say: their paths, their trees and the
counts of their graphs. Only the length of numbers is limited, and that limit is met before
anything is written. -/

namespace RustMetrics

namespace Json

/-- A number stands somewhere in a document. -/
inductive Contains : Json → Int → Prop
  | int (n : Int) : Contains (.int n) n
  | item {v : Json} {vs : List Json} {n : Int} : v ∈ vs → Contains v n → Contains (.arr vs) n
  | field {k : String} {v : Json} {fs : List (String × Json)} {n : Int} :
      (k, v) ∈ fs → Contains v n → Contains (.obj fs) n

theorem contains_int_iff {n m : Int} : (int m).Contains n ↔ n = m := by
  constructor
  · rintro ⟨⟩
    rfl
  · rintro rfl
    exact .int n

theorem contains_arr_iff {vs : List Json} {n : Int} :
    (arr vs).Contains n ↔ ∃ v ∈ vs, v.Contains n := by
  constructor
  · rintro ⟨⟩
    next v hv hn => exact ⟨v, hv, hn⟩
  · rintro ⟨v, hv, hn⟩
    exact .item hv hn

theorem contains_obj_iff {fs : List (String × Json)} {n : Int} :
    (obj fs).Contains n ↔ ∃ f ∈ fs, f.2.Contains n := by
  constructor
  · rintro ⟨⟩
    next k v hv hn => exact ⟨(k, v), hv, hn⟩
  · rintro ⟨⟨k, v⟩, hv, hn⟩
    exact .field hv hn

variable {n : Int}

@[simp] theorem not_contains_null : ¬ null.Contains n := by
  intro h
  cases h

@[simp] theorem not_contains_bool {b : Bool} : ¬ (bool b).Contains n := by
  intro h
  cases h

@[simp] theorem not_contains_str {s : String} : ¬ (str s).Contains n := by
  intro h
  cases h

mutual

theorem mem_numbersOnto (rest : List Int) :
    (j : Json) → (n ∈ numbersOnto rest j ↔ j.Contains n ∨ n ∈ rest)
  | .int m => by rw [numbersOnto, List.mem_cons, contains_int_iff]
  | .arr vs => by rw [numbersOnto, mem_numbersItemsOnto rest vs, contains_arr_iff]
  | .obj fs => by rw [numbersOnto, mem_numbersFieldsOnto rest fs, contains_obj_iff]
  | .null => by simp [numbersOnto]
  | .bool b => by simp [numbersOnto]
  | .str s => by simp [numbersOnto]

theorem mem_numbersItemsOnto (rest : List Int) :
    (vs : List Json) → (n ∈ numbersItemsOnto rest vs ↔ (∃ v ∈ vs, v.Contains n) ∨ n ∈ rest)
  | [] => by simp [numbersItemsOnto]
  | v :: vs => by
    rw [numbersItemsOnto, mem_numbersOnto _ v, mem_numbersItemsOnto rest vs]
    simp [or_assoc]

theorem mem_numbersFieldsOnto (rest : List Int) :
    (fs : List (String × Json)) →
      (n ∈ numbersFieldsOnto rest fs ↔ (∃ f ∈ fs, f.2.Contains n) ∨ n ∈ rest)
  | [] => by simp [numbersFieldsOnto]
  | (k, v) :: fs => by
    rw [numbersFieldsOnto, mem_numbersOnto _ v, mem_numbersFieldsOnto rest fs]
    simp [or_assoc]

end

theorem mem_numbers {j : Json} : n ∈ j.numbers ↔ j.Contains n := by
  rw [numbers, mem_numbersOnto]
  simp

end Json

/-! ### Documents -/

theorem SymbolKind.name_injective {k k' : SymbolKind} (h : k.name = k'.name) : k = k' := by
  cases k <;> cases k' <;> first | rfl | exact absurd h (by decide)

namespace SymbolTree

mutual

/-- A tree can be told from its document. -/
theorem eq_of_document_eq : (t t' : SymbolTree) → t.document = t'.document → t = t'
  | node n k c [], node n' k' c' [], h => by
    simp only [document, Json.obj.injEq, List.cons.injEq, Prod.mk.injEq, Json.str.injEq,
      Json.int.injEq, true_and, and_true] at h
    obtain ⟨hname, hkind, hcount⟩ := h
    rw [hname, SymbolKind.name_injective hkind, hcount]
  | node n k c [], node n' k' c' (u :: us), h => by
    simp [document] at h
  | node n k c (t :: ts), node n' k' c' [], h => by
    simp [document] at h
  | node n k c (t :: ts), node n' k' c' (u :: us), h => by
    simp only [document, Json.obj.injEq, List.cons.injEq, Prod.mk.injEq, Json.str.injEq,
      Json.int.injEq, Json.arr.injEq, true_and, and_true] at h
    obtain ⟨hname, hkind, hcount, hchildren⟩ := h
    rw [hname, SymbolKind.name_injective hkind, hcount,
      eq_of_documents_eq (t :: ts) (u :: us) hchildren]

theorem eq_of_documents_eq :
    (ts ts' : List SymbolTree) → documents ts = documents ts' → ts = ts'
  | [], [], _ => rfl
  | [], _ :: _, h => by
    simp [documents] at h
  | _ :: _, [], h => by
    simp [documents] at h
  | t :: ts, u :: us, h => by
    simp only [documents, List.cons.injEq] at h
    rw [eq_of_document_eq t u h.1, eq_of_documents_eq ts us h.2]

end

end SymbolTree

/-- What a report says of a graph. -/
def Graph.counts {V : Type} (g : Graph V) : Int × Nat × Nat × Int :=
  (g.components, g.nodeCount, g.edgeCount, g.complexity)

theorem Graph.counts_eq_of_document_eq {V W : Type} {g : Graph V} {g' : Graph W}
    (h : g.document = g'.document) : g.counts = g'.counts := by
  simpa [document, counts, Int.ofNat_inj] using h

namespace Report

variable {V W : Type}

/-- What a report says of a file. -/
def facts (r : Report V) : String × Option SymbolTree × Option (Int × Nat × Nat × Int) :=
  (r.path, r.tree, r.graph.map Graph.counts)

/-- The fields that a report has in a document. Those of a tree are there if the report has a
tree, and so is that of a graph. -/
structure DescribedBy (r : Report V) (d : Json) : Prop where
  path : d.field? "path" = some (.str r.path)
  tree : d.field? "tree" = r.tree.map SymbolTree.document
  symbols : d.field? "symbols" =
    r.tree.map fun t => .arr (t.entries.map SymbolTree.Entry.document)
  total : d.field? "total_complexity" = r.tree.map fun t => .int t.total
  graph : d.field? "graph" = r.graph.map Graph.document

theorem describedBy_document (r : Report V) : r.DescribedBy r.document := by
  obtain ⟨path, tree, graph⟩ := r
  cases tree <;> cases graph <;> exact ⟨rfl, rfl, rfl, rfl, rfl⟩

theorem DescribedBy.facts_eq {r : Report V} {r' : Report W} {d : Json} (h : r.DescribedBy d)
    (h' : r'.DescribedBy d) : r.facts = r'.facts := by
  have hpath : r.path = r'.path := by
    simpa using h.path.symm.trans h'.path
  have htree : r.tree = r'.tree :=
    Option.map_injective (fun t t' => t.eq_of_document_eq t') (h.tree.symm.trans h'.tree)
  have hgraph : r.graph.map Graph.counts = r'.graph.map Graph.counts := by
    have hdocs := h.graph.symm.trans h'.graph
    cases hg : r.graph <;> cases hg' : r'.graph <;> simp [hg, hg'] at hdocs
    · rfl
    · exact congrArg some (Graph.counts_eq_of_document_eq hdocs)
  rw [facts, facts, hpath, htree, hgraph]

/-- The document of some reports: how many there are, and each of them in order. -/
structure AllDescribedBy (reports : List (Report V)) (d : Json) : Prop where
  files : (d.field? "summary").bind (·.field? "files") = some (.int reports.length)
  each : ∃ ds, d.field? "files" = some (.arr ds) ∧ List.Forall₂ DescribedBy reports ds

theorem allDescribedBy_documentAll (reports : List (Report V)) :
    AllDescribedBy reports (documentAll reports) where
  files := rfl
  each := by
    refine ⟨reports.map document, rfl, ?_⟩
    rw [List.forall₂_map_right_iff, List.forall₂_same]
    exact fun r _ => r.describedBy_document

theorem AllDescribedBy.map_facts_eq {reports : List (Report V)} {others : List (Report W)}
    {d : Json} (h : AllDescribedBy reports d) (h' : AllDescribedBy others d) :
    reports.map facts = others.map facts := by
  obtain ⟨ds, hds, hreports⟩ := h.each
  obtain ⟨ds', hds', hothers⟩ := h'.each
  have hsame : ds' = ds := by
    simpa using hds'.symm.trans hds
  rw [hsame] at hothers
  clear hds hds' hsame h h'
  induction hreports generalizing others with
  | nil =>
    cases hothers
    rfl
  | cons hr _ ih =>
    cases hothers with
    | cons hr' hothers => rw [List.map_cons, List.map_cons, hr.facts_eq hr', ih hothers]

/-- Every number of some reports is short enough to be written. -/
def Short (reports : List (Report V)) : Prop :=
  ∀ n, (documentAll reports).Contains n → (Nat.toDigits 10 n.natAbs).length ≤ 4300

theorem all_isWritable_iff {reports : List (Report V)} :
    (documentAll reports).numbers.all Text.isWritable = true ↔ Short reports := by
  simp only [List.all_eq_true, Json.mem_numbers, Text.isWritable_iff]
  rfl

theorem printedJson_of_short {reports : List (Report V)} (h : Short reports) :
    printedJson reports = .ok (json reports) := by
  rw [printedJson, withNumbers, if_pos (all_isWritable_iff.mpr h)]

theorem printedJson_of_not_short {reports : List (Report V)} (h : ¬ Short reports) :
    printedJson reports = .error .tooManyDigits := by
  rw [printedJson, withNumbers, if_neg (all_isWritable_iff.not.mpr h)]

theorem eq_json_of_printedJson {reports : List (Report V)} {text : String}
    (h : printedJson reports = .ok text) : text = json reports := by
  by_cases hshort : Short reports
  · rw [printedJson_of_short hshort] at h
    exact (Except.ok.inj h).symm
  · rw [printedJson_of_not_short hshort] at h
    cases h

/-- Reports without long numbers have a JSON form. It is ASCII, it spells one document, and
reading gives that document back, so reports of the same text say the same of the same files. -/
theorem json_loses_nothing (reports : List (Report V)) :
    (Short reports → ∃ text, printedJson reports = .ok text ∧ Json.Ascii text.toList ∧
        (∀ d, Json.SpellsText d text.toList ↔ d = documentAll reports) ∧
        Json.parse? text = some (documentAll reports) ∧
        AllDescribedBy reports (documentAll reports) ∧
        ∀ {W : Type} (others : List (Report W)), printedJson others = .ok text →
          others.map facts = reports.map facts) ∧
      (¬ Short reports → printedJson reports = .error .tooManyDigits) := by
  refine ⟨fun hshort => ?_, printedJson_of_not_short⟩
  refine ⟨json reports, printedJson_of_short hshort, Json.ascii_render _,
    fun d => Json.spellsText_render_iff, Json.parse?_render _, allDescribedBy_documentAll reports, ?_⟩
  intro W others hothers
  have hdocs : documentAll reports = documentAll others := by
    have hread := Json.parse?_render (documentAll reports)
    rw [← json, eq_json_of_printedJson hothers, json, Json.parse?_render] at hread
    exact (Option.some.inj hread).symm
  have hothers := allDescribedBy_documentAll others
  rw [← hdocs] at hothers
  exact hothers.map_facts_eq (allDescribedBy_documentAll reports)

/-- A path that needs an escape and a pair of units, with a tree and a graph. -/
def crabReport : Report Nat where
  path := "\"🦀\".rs"
  tree := some (.node "🦀" .file 0
    [.node "Übung" .impl 0 [.node "eat\t" .method 3 []], .node "main" .fn (-1) []])
  graph := some { edges := #[⟨1, 2⟩, ⟨1, 2⟩], root := some 1, components := 1, vertices := [1, 2] }

theorem json_of_crabReport :
    Short [crabReport] ∧ ∃ text, printedJson [crabReport] = .ok text ∧
      Json.parse? text = some (documentAll [crabReport]) := by
  have hshort : Short [crabReport] := all_isWritable_iff.mp (by decide +kernel)
  obtain ⟨text, htext, _, _, hread, _⟩ := (json_loses_nothing [crabReport]).1 hshort
  exact ⟨hshort, text, htext, hread⟩

/-- A function with the largest count that has 4300 digits. -/
def crowdedTree : SymbolTree :=
  .node "p" .file 0 [.node "f" .fn (Nat.pow 10 Text.maxDigits - 1 : Nat) []]

def crowdedReport : Report Nat where
  path := "p"
  tree := some crowdedTree

/-- McCabe's number is one more, and it is one digit too long. -/
theorem json_can_be_too_long :
    (∃ text, printedText [crowdedReport] = .ok text) ∧
      printedJson [crowdedReport] = .error .tooManyDigits := by
  have hshort : crowdedTree.Short := SymbolTree.all_isWritable_iff.mp (by decide +kernel)
  have hlong : ¬ Short [crowdedReport] := all_isWritable_iff.not.mp (by decide +kernel)
  have htext : printedText [crowdedReport] = crowdedTree.render := printedText_of_tree "p" crowdedTree
  exact ⟨⟨_, htext.trans (SymbolTree.render_of_short hshort)⟩, printedJson_of_not_short hlong⟩

end Report

end RustMetrics
