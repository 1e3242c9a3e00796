import Mathlib.Data.List.Induction
import Mathlib.Data.List.TakeWhile
import RustMetrics.Disk.Listing
import RustMetrics.Proofs.Disk.Write

/-! Files that a search finds can be named. A search hands over paths as texts, and a text is read
again when its file is looked up: it gives the same path, since no name on it is empty, a
dot or has a slash in it. The path leads to the place where the file was found, since what
holds an entry is a directory and its names are not too long for a disk. -/

namespace RustMetrics

namespace Path

theorem pieces_of_notMem {cs : List Char} (h : '/' ∉ cs) : pieces cs = [cs] := by
  induction cs with
  | nil => rfl
  | cons c cs ih =>
    obtain ⟨hc, hcs⟩ := List.ne_and_not_mem_of_not_mem_cons h
    rw [pieces, if_neg (Ne.symm hc), ih hcs]

theorem pieces_append_slash {cs : List Char} (h : '/' ∉ cs) (ds : List Char) :
    pieces (cs ++ '/' :: ds) = cs :: pieces ds := by
  induction cs with
  | nil => rw [List.nil_append, pieces, if_pos rfl]
  | cons c cs ih =>
    obtain ⟨hc, hcs⟩ := List.ne_and_not_mem_of_not_mem_cons h
    rw [List.cons_append, pieces, if_neg (Ne.symm hc), ih hcs]

theorem pieces_intercalate {names : List (List Char)} (hne : names ≠ [])
    (h : ∀ n ∈ names, '/' ∉ n) : pieces (['/'].intercalate names) = names := by
  induction names with
  | nil => exact absurd rfl hne
  | cons n names ih =>
    have hn := h n List.mem_cons_self
    cases names with
    | nil => rw [List.intercalate_singleton, pieces_of_notMem hn]
    | cons m names =>
      rw [List.intercalate_cons_cons, List.append_assoc, List.singleton_append,
        pieces_append_slash hn, ih (List.cons_ne_nil m names)
          fun n hn => h n (List.mem_cons_of_mem _ hn)]

/-- A path whose root and names can be told apart in its text. -/
structure Plain (p : Path) : Prop where
  root : p.root = "" ∨ p.root = "/" ∨ p.root = "//"
  parts : ∀ n ∈ p.parts, isName n = true ∧ '/' ∉ n.toList

/-- Joined names do not start with a slash. -/
theorem head?_intercalate_ne {names : List (List Char)} (h : ∀ n ∈ names, n ≠ [] ∧ '/' ∉ n) :
    (['/'].intercalate names).head? ≠ some '/' := by
  cases names with
  | nil => simp [List.intercalate_nil]
  | cons n names =>
    obtain ⟨hne, hslash⟩ := h n List.mem_cons_self
    obtain ⟨ds, hds⟩ : ∃ ds, ['/'].intercalate (n :: names) = n ++ ds := by
      cases names with
      | nil => exact ⟨[], by rw [List.intercalate_singleton, List.append_nil]⟩
      | cons m names => exact ⟨_, by rw [List.intercalate_cons_cons, List.append_assoc]⟩
    rw [hds]
    cases n with
    | nil => exact absurd rfl hne
    | cons c cs =>
      rintro ⟨⟩
      exact hslash List.mem_cons_self

theorem rootOf_cases (cs : List Char) : rootOf cs = "" ∨ rootOf cs = "/" ∨ rootOf cs = "//" := by
  unfold rootOf
  split <;> simp

theorem rootOf_append {root : String} (hroot : root = "" ∨ root = "/" ∨ root = "//")
    {cs : List Char} (h : cs.head? ≠ some '/') : rootOf (root.toList ++ cs) = root := by
  cases cs with
  | nil => rcases hroot with rfl | rfl | rfl <;> rfl
  | cons c cs =>
    have hc : c ≠ '/' := fun hc => h (congrArg some hc)
    rcases hroot with rfl | rfl | rfl
    · show rootOf (c :: cs) = ""
      rw [rootOf] <;> simp [hc]
    · show rootOf ('/' :: c :: cs) = "/"
      rw [rootOf] <;> simp [hc]
    · show rootOf ('/' :: '/' :: c :: cs) = "//"
      rw [rootOf]
      simp [hc]

/-- The names in a text. -/
def namesIn (cs : List Char) : List String := ((pieces cs).map String.ofList).filter isName

theorem namesIn_slash (cs : List Char) : namesIn ('/' :: cs) = namesIn cs := by
  rw [namesIn, pieces, if_pos rfl]
  rfl

theorem namesIn_append {root : String} (hroot : root = "" ∨ root = "/" ∨ root = "//")
    (cs : List Char) : namesIn (root.toList ++ cs) = namesIn cs := by
  rcases hroot with rfl | rfl | rfl
  · rfl
  · exact namesIn_slash cs
  · exact (namesIn_slash _).trans (namesIn_slash cs)

theorem namesIn_intercalate {names : List String}
    (h : ∀ n ∈ names, isName n = true ∧ '/' ∉ n.toList) :
    namesIn (['/'].intercalate (names.map String.toList)) = names := by
  by_cases hne : names = []
  · subst hne
    rfl
  · have hslash : ∀ cs ∈ names.map String.toList, '/' ∉ cs := by
      intro cs hcs
      obtain ⟨m, hm, rfl⟩ := List.mem_map.mp hcs
      exact (h m hm).2
    rw [namesIn, pieces_intercalate (by simpa using hne) hslash, List.map_map,
      show String.ofList ∘ String.toList = id from funext fun _ => String.ofList_toList, List.map_id]
    exact List.filter_eq_self.mpr fun m hm => (h m hm).1

theorem toList_ne_nil_of_isName {n : String} (h : isName n = true) : n.toList ≠ [] := by
  rw [isName, Bool.and_eq_true, bne_iff_ne] at h
  simpa using h.1

/-- The text of a path is read as the same path. -/
theorem Plain.ofString_toString {p : Path} (h : p.Plain) : ofString p.toString = p := by
  by_cases hempty : p.root.isEmpty && p.parts.isEmpty
  · obtain ⟨root, parts⟩ := p
    simp only [Bool.and_eq_true, String.isEmpty_iff, List.isEmpty_iff] at hempty
    obtain ⟨rfl, rfl⟩ := hempty
    rfl
  · have htext : p.toString.toList =
        p.root.toList ++ ['/'].intercalate (p.parts.map String.toList) := by
      rw [toString, if_neg hempty, String.toList_append, String.toList_intercalate]
      rfl
    have hhead : (['/'].intercalate (p.parts.map String.toList)).head? ≠ some '/' := by
      refine head?_intercalate_ne fun cs hcs => ?_
      obtain ⟨m, hm, rfl⟩ := List.mem_map.mp hcs
      exact ⟨toList_ne_nil_of_isName (h.parts m hm).1, (h.parts m hm).2⟩
    rw [ofString, htext, rootOf_append h.root hhead, ← namesIn, namesIn_append h.root,
      namesIn_intercalate h.parts]

theorem plain_ofString (s : String) : (ofString s).Plain :=
  ⟨rootOf_cases _, fun _ hn => isName_of_mem_parts hn⟩

theorem isName_of_isEntryName {name : String} (h : isEntryName name = true) :
    isName name = true ∧ '/' ∉ name.toList := by
  simp only [isEntryName, Bool.and_eq_true] at h
  obtain ⟨⟨⟨⟨⟨hempty, hdot⟩, _⟩, hslash⟩, _⟩, _⟩ := h
  exact ⟨by rw [isName, hempty, hdot]; rfl, by simpa using hslash⟩

theorem append_nil (p : Path) : p.append [] = p := by
  rw [append, List.append_nil]

theorem Plain.append {p : Path} {names : List String} (h : p.Plain)
    (hnames : ∀ n ∈ names, isEntryName n = true) : (p.append names).Plain := by
  refine ⟨h.root, ?_⟩
  intro n hn
  rcases List.mem_append.mp hn with hn | hn
  · exact h.parts n hn
  · exact isName_of_isEntryName (hnames n hn)

end Path

theorem Place.below?_eq_some_iff {place q : Place} {names : List String} :
    Place.below? place q = some names ↔ q = place ++ names := by
  induction place generalizing q with
  | nil => simp [below?, eq_comm]
  | cons p ps ih =>
    cases q with
    | nil => simp [below?]
    | cons r qs =>
      rw [below?]
      by_cases h : p = r
      · subst h
        simp [ih]
      · simp [h, Ne.symm h]

namespace Disk

variable {d : Disk} {here place : Place} {names : List String} {x : Entry}

theorem mem_dirsBelow : names ∈ d.dirsBelow place ↔ (place ++ names, Entry.dir) ∈ d.entries := by
  rw [dirsBelow, List.mem_filterMap]
  constructor
  · rintro ⟨⟨q, y⟩, hq, h⟩
    cases y with
    | file f => cases h
    | dir => exact Place.below?_eq_some_iff.mp h ▸ hq
  · intro h
    exact ⟨_, h, Place.below?_eq_some_iff.mpr rfl⟩

theorem mem_filesBelow {f : File} :
    (names, f) ∈ d.filesBelow place ↔ (place ++ names, Entry.file f) ∈ d.entries := by
  rw [filesBelow, List.mem_filterMap]
  constructor
  · rintro ⟨⟨q, y⟩, hq, h⟩
    cases y with
    | dir => cases h
    | file g =>
      obtain ⟨ns, hns, he⟩ := Option.map_eq_some_iff.mp h
      cases he
      exact Place.below?_eq_some_iff.mp hns ▸ hq
  · intro h
    exact ⟨_, h, Option.map_eq_some_iff.mpr ⟨names, Place.below?_eq_some_iff.mpr rfl, rfl⟩⟩

theorem entry_of_mem (h : (place, x) ∈ d.entries) : d.entry? place = some x := by
  unfold entry?
  rw [if_neg (d.named _ h).1, lookup_of_mem d.nodup h]

/-- What leads to an entry is a directory. -/
theorem isDir_of_mem_append (hne : names ≠ []) (h : (here ++ names, x) ∈ d.entries) :
    d.isDir here = true := by
  have hhold : d.isDir (here ++ names.dropLast) = true := by
    have hdrop : (here ++ names).dropLast = here ++ names.dropLast :=
      List.dropLast_append_of_ne_nil hne
    rcases d.closed _ h with hnil | hmem
    · rw [← hdrop, show (here ++ names).dropLast = [] from hnil]
      rfl
    · rw [← hdrop]
      exact isDir_of_mem hmem
  generalize names.dropLast = between at hhold
  induction between using List.reverseRecOn with
  | nil => rwa [List.append_nil] at hhold
  | append_singleton between name ih =>
    refine ih ?_
    have hup := isDir_dropLast hhold
    rwa [← List.append_assoc, List.dropLast_concat] at hup

/-- The names from a directory to an entry below it lead there. -/
theorem locate_of_mem (h : (here ++ names, x) ∈ d.entries) :
    d.locate here names = .ok (here ++ names) := by
  have hnamed := (d.named _ h).2
  induction names generalizing here with
  | nil => rw [locate, List.append_nil]
  | cons name names ih =>
    have hdir := isDir_iff.mp (isDir_of_mem_append (List.cons_ne_nil name names) h)
    have hname := hnamed name (List.mem_append_right _ List.mem_cons_self)
    simp only [isEntryName, Bool.and_eq_true] at hname
    have hcons : here ++ name :: names = here ++ [name] ++ names := by simp
    rw [hcons] at h hnamed
    rw [locate, hdir, hcons]
    simp only
    rw [if_neg (by simpa using hname.2), if_pos hname.1.1.1.2, ih h hnamed]

theorem locate_append {parts : List String} (h : d.locate here parts = .ok place) :
    d.locate here (parts ++ names) = d.locate place names := by
  induction parts generalizing here with
  | nil =>
    cases h
    rfl
  | cons part parts ih =>
    rw [locate] at h
    rw [List.cons_append, locate]
    split at h
    · cases h
    · cases h
    · split at h
      · cases h
      · next hsize =>
        rw [if_neg hsize]
        split at h
        · next hup =>
          rw [if_pos hup]
          exact ih h
        · next hup =>
          rw [if_neg hup]
          exact ih h

/-- An entry below a path has a path of its own, unless that is too long. -/
theorem placeOf_append {p : Path} (hp : d.placeOf p = .ok place)
    (h : (place ++ names, x) ∈ d.entries) (hlong : (p.append names).isTooLong = false) :
    d.placeOf (p.append names) = .ok (place ++ names) := by
  obtain ⟨hnul, hlocate⟩ := placeOf_eq_ok hp
  have hnul' : hasNul (p.append names) = false := by
    rw [hasNul, Path.append, List.any_append, Bool.or_eq_false_iff]
    refine ⟨hnul, List.any_eq_false.mpr fun n hn => ?_⟩
    have hname := (d.named _ h).2 n (List.mem_append_right _ hn)
    simp only [isEntryName, Bool.and_eq_true] at hname
    simpa using hname.1.2
  rw [placeOf, hnul', hlong]
  show d.locate (d.start p) (p.parts ++ names) = _
  rw [locate_append hlocate, locate_of_mem h]

variable {path : String} {extensions ignored : List String}

theorem mem_files_sourcesBelow {p : Path} {f : Path × File}
    (h : f ∈ (d.sourcesBelow p place extensions ignored).files) :
    ∃ names, f.1 = p.append names ∧ (place ++ names, Entry.file f.2) ∈ d.entries ∧
      (p.append names).isTooLong = false := by
  rw [sourcesBelow] at h
  split at h
  · cases h
  · obtain ⟨⟨names, file⟩, hmem, rfl⟩ := List.mem_map.mp h
    have hreached := (List.mem_filter.mp hmem).1
    refine ⟨names, rfl, ?_, by simpa using List.mem_takeWhile_imp hreached⟩
    exact mem_filesBelow.mp (List.mem_mergeSort.mp ((List.takeWhile_sublist _).subset hreached))

/-- A file that was found is what its path names, also when the path is read from its text. -/
theorem placeOf_of_mem_sources {f : Path × File}
    (h : f ∈ (d.sources (.ofString path) extensions ignored).files) :
    Path.ofString f.1.toString = f.1 ∧
      ∃ place, d.placeOf f.1 = .ok place ∧ d.entry? place = some (.file f.2) := by
  rw [sources] at h
  split at h
  · cases h
  · cases h
  · next place hplace =>
    have hplain := Path.plain_ofString path
    split at h
    · cases h
    · next file hfile =>
      cases List.mem_singleton.mp h
      exact ⟨hplain.ofString_toString, place, hplace, hfile⟩
    · obtain ⟨names, hpath, hmem, hlong⟩ := mem_files_sourcesBelow h
      have hnames := fun n hn => (d.named _ hmem).2 n (List.mem_append_right _ hn)
      rw [hpath]
      exact ⟨(hplain.append hnames).ofString_toString,
        place ++ names, placeOf_append hplace hmem hlong, entry_of_mem hmem⟩

/-- A path that names a file stands for this file alone. -/
theorem sources_of_file {p : Path} {f : File} (hplace : d.placeOf p = .ok place)
    (hfile : d.entry? place = some (.file f)) :
    d.sources p extensions ignored = ⟨[(p, f)], none⟩ := by
  rw [sources, hplace]
  simp only [hfile]

/-- Below a directory whose files are listed in their order, a search takes the source files up to
the first path that is too long. -/
theorem sources_of_sorted {p : Path} (hplace : d.placeOf p = .ok place)
    (hdir : d.entry? place = some .dir) (hdirs : tooLong? p (d.dirsBelow place) = none)
    (hsorted : (d.filesBelow place).Pairwise fun x y => comesUpTo x.1 y.1) :
    d.sources p extensions ignored =
      ⟨(((d.filesBelow place).takeWhile fun x => !(p.append x.1).isTooLong).filter
          fun x => isSource extensions ignored x.1).map fun x => (p.append x.1, x.2),
        tooLong? p ((d.filesBelow place).map Prod.fst)⟩ := by
  rw [sources, hplace]
  simp only [hdir, sourcesBelow, hdirs]
  rw [List.mergeSort_of_pairwise hsorted]

theorem tooLong?_eq_some {p : Path} {below : List (List String)} {e : Failure}
    (h : tooLong? p below = some e) : ∃ names ∈ below, (p.append names).isTooLong = true ∧
      e = .nameTooLong (p.append names).toString := by
  obtain ⟨names, hfind, he⟩ := Option.map_eq_some_iff.mp h
  have hlong := List.find?_some hfind
  exact ⟨names, List.mem_of_find?_eq_some hfind, hlong, he.symm⟩

/-- A search ends early only at a path that is too long: its own, or that of an entry below. -/
theorem failure_sources {p : Path} {e : Failure}
    (h : (d.sources p extensions ignored).failure = some e) :
    d.placeOf p = .error .tooLong ∨ ∃ place names x, d.placeOf p = .ok place ∧
      (place ++ names, x) ∈ d.entries ∧ (p.append names).isTooLong = true ∧
      e = .nameTooLong (p.append names).toString := by
  rw [sources] at h
  split at h
  · next hlong => exact .inl hlong
  · cases h
  · next place hplace =>
    refine .inr ⟨place, ?_⟩
    split at h
    · cases h
    · cases h
    · rw [sourcesBelow] at h
      split at h
      · next e' hdirs =>
        cases h
        obtain ⟨names, hmem, hlong, he⟩ := tooLong?_eq_some hdirs
        exact ⟨names, .dir, hplace, mem_dirsBelow.mp hmem, hlong, he⟩
      · obtain ⟨names, hmem, hlong, he⟩ := tooLong?_eq_some h
        obtain ⟨⟨_, f⟩, hf, rfl⟩ := List.mem_map.mp hmem
        exact ⟨_, .file f, hplace, mem_filesBelow.mp (List.mem_mergeSort.mp hf), hlong, he⟩

end Disk

end RustMetrics
