import Mathlib.Data.List.Lex
import Mathlib.Data.List.Sort
import RustMetrics.Proofs.Disk.Naming
import RustMetrics.Proofs.Report.FileByFile

/-! What a search for source files lists. Below a directory it is every file with a wanted
extension that no ignored name leads to, each once, in the order of the names on the way. Names
that lead to the directory itself are not looked at, so the list of a directory inside is a part
of the whole list. All this holds as long as no path is too long for the disk: a directory with
such a path leaves the list empty, and a file ends it where its turn comes. -/

namespace RustMetrics

namespace Path

/-! ### The order of paths -/

def CodeLt (c d : Char) : Prop := c.toNat < d.toNat

/-- Names are compared by the codes of their characters. -/
def NameLt (a b : String) : Prop := List.Lex CodeLt a.toList b.toList

/-- Paths are compared name by name. A slash does not count as a character. -/
def NamesLt : List String → List String → Prop := List.Lex NameLt

instance : Std.Asymm CodeLt where
  asymm _ _ := Nat.lt_asymm

instance : Std.Trichotomous CodeLt where
  trichotomous _ _ hcd hdc :=
    Char.toNat_inj.mp (Nat.le_antisymm (Nat.le_of_not_lt hdc) (Nat.le_of_not_lt hcd))

instance : IsOrderConnected Char CodeLt where
  conn c d e h := by
    unfold CodeLt at *
    omega

instance : Std.Asymm NameLt where
  asymm a b := Std.Asymm.asymm (r := List.Lex CodeLt) a.toList b.toList

instance : Std.Trichotomous NameLt where
  trichotomous _ _ hab hba :=
    String.toList_inj.mp (Std.Trichotomous.trichotomous (r := List.Lex CodeLt) _ _ hab hba)

instance : IsOrderConnected String NameLt where
  conn a b c := (List.Lex.isOrderConnected CodeLt).conn a.toList b.toList c.toList

instance : Std.Asymm NamesLt := inferInstanceAs (Std.Asymm (List.Lex NameLt))

instance : Std.Trichotomous NamesLt := inferInstanceAs (Std.Trichotomous (List.Lex NameLt))

instance : IsOrderConnected (List String) NamesLt :=
  inferInstanceAs (IsOrderConnected (List String) (List.Lex NameLt))

theorem namesLt_append_iff (names : List String) {xs ys : List String} :
    NamesLt (names ++ xs) (names ++ ys) ↔ NamesLt xs ys := by
  induction names with
  | nil => exact Iff.rfl
  | cons name names ih => exact List.lex_cons_iff.trans ih

theorem append_append (p : Path) (xs ys : List String) :
    (p.append xs).append ys = p.append (xs ++ ys) := by
  simp only [append, List.append_assoc]

/-! ### Extensions -/

/-- A name is cut at a dot that is its last and has something on both sides. -/
def CutAt (name : String) (stem ext : List Char) : Prop :=
  name.toList = stem ++ '.' :: ext ∧ stem ≠ [] ∧ ext ≠ [] ∧ '.' ∉ ext

/-- The extension of a name, with its dot, or nothing if the name cannot be cut. So `.rs` and
`rs.` have none, and that of `..rs` is `.rs`. -/
def HasSuffix (name s : String) : Prop :=
  (∃ stem ext, CutAt name stem ext ∧ s = String.ofList ('.' :: ext)) ∨
    s = "" ∧ ∀ stem ext, ¬ CutAt name stem ext

theorem suffixOf_of_notMem {name : String} (h : '.' ∉ name.toList) : suffixOf name = "" := by
  have hall : name.toList.reverse.dropWhile (· != '.') = [] := by
    rw [List.dropWhile_eq_nil_iff]
    intro c hc
    rw [List.mem_reverse] at hc
    rw [bne_iff_ne]
    rintro rfl
    exact h hc
  simp only [suffixOf, hall]

theorem suffixOf_of_split {name : String} {stem ext : List Char}
    (h : name.toList = stem ++ '.' :: ext) (hext : '.' ∉ ext) :
    suffixOf name =
      if ext.isEmpty || stem.isEmpty then "" else String.ofList ('.' :: ext) := by
  have hreverse : name.toList.reverse = ext.reverse ++ '.' :: stem.reverse := by
    rw [h]
    simp
  have hclear : ∀ c ∈ ext.reverse, (c != '.') = true := by
    intro c hc
    rw [bne_iff_ne]
    rintro rfl
    exact hext (List.mem_reverse.mp hc)
  have hlast : name.toList.reverse.takeWhile (· != '.') = ext.reverse := by
    rw [hreverse, List.takeWhile_append_of_pos hclear, List.takeWhile_cons_of_neg (by simp),
      List.append_nil]
  have hrest : name.toList.reverse.dropWhile (· != '.') = '.' :: stem.reverse := by
    rw [hreverse, List.dropWhile_append_of_pos hclear, List.dropWhile_cons_of_neg (by simp)]
  simp only [suffixOf, hlast, hrest, List.isEmpty_reverse, List.reverse_reverse]

theorem suffixOf_of_cutAt {name : String} {stem ext : List Char} (h : CutAt name stem ext) :
    suffixOf name = String.ofList ('.' :: ext) := by
  obtain ⟨hname, hstem, hext, hdot⟩ := h
  rw [suffixOf_of_split hname hdot, if_neg (by simp [hstem, hext])]

theorem suffixOf_of_not_cutAt {name : String} (h : ∀ stem ext, ¬ CutAt name stem ext) :
    suffixOf name = "" := by
  by_cases hdot : '.' ∈ name.toList
  · -- The first dot from behind is the last one.
    obtain ⟨after, before, hsplit, hafter⟩ :=
      List.eq_append_cons_of_mem (List.mem_reverse.mpr hdot)
    have hname : name.toList = before.reverse ++ '.' :: after.reverse := by
      rw [← List.reverse_reverse name.toList, hsplit]
      simp
    have hext : '.' ∉ after.reverse := fun hc => hafter (List.mem_reverse.mp hc)
    rw [suffixOf_of_split hname hext]
    split
    · rfl
    · next hboth =>
      simp only [Bool.or_eq_true, List.isEmpty_iff, not_or] at hboth
      exact absurd ⟨hname, hboth.2, hboth.1, hext⟩ (h _ _)
  · exact suffixOf_of_notMem hdot

theorem suffixOf_eq_iff {name s : String} : suffixOf name = s ↔ HasSuffix name s := by
  constructor
  · rintro rfl
    by_cases h : ∃ stem ext, CutAt name stem ext
    · obtain ⟨stem, ext, h⟩ := h
      exact .inl ⟨stem, ext, h, suffixOf_of_cutAt h⟩
    · have hnone : ∀ stem ext, ¬ CutAt name stem ext := fun stem ext hc => h ⟨stem, ext, hc⟩
      exact .inr ⟨suffixOf_of_not_cutAt hnone, hnone⟩
  · rintro (⟨stem, ext, h, rfl⟩ | ⟨rfl, h⟩)
    · exact suffixOf_of_cutAt h
    · exact suffixOf_of_not_cutAt h

end Path

namespace Disk

theorem comesUpTo_iff {names others : List String} :
    comesUpTo names others = true ↔ ¬ Path.NamesLt others names := by
  rw [comesUpTo, decide_eq_true_iff]
  exact Iff.rfl

variable {d : Disk} {p : Path} {place : Place} {extensions ignored names : List String}

/-- A file below a directory that a search is for, and the names that lead to it from there. -/
structure Seeks (d : Disk) (place : Place) (extensions ignored names : List String) (f : File) :
    Prop where
  file : (place ++ names, Entry.file f) ∈ d.entries
  seen : ∀ name ∈ names, name ∉ ignored
  suffix : ∃ name s, names.getLast? = some name ∧ Path.HasSuffix name s ∧ Text.lower s ∈ extensions

/-- The files below a directory that a search is for, as far as it comes: each once, and in the
order of their paths. -/
structure Lists (d : Disk) (p : Path) (place : Place) (extensions ignored : List String)
    (reach : List String → Prop) (files : List (Path × File)) : Prop where
  mem_iff : ∀ q f, (q, f) ∈ files ↔
    ∃ names, q = p.append names ∧ d.Seeks place extensions ignored names f ∧ reach names
  sorted : files.Pairwise fun x y => Path.NamesLt x.1.parts y.1.parts
  texts : (files.map fun x => x.1.toString).Nodup

/-- What a search below a directory comes to. All directories are read first, so one whose path is
too long leaves nothing to list. A file whose path is too long ends the list where its turn
comes, whether it is sought or not. -/
structure Searches (d : Disk) (p : Path) (place : Place) (extensions ignored : List String)
    (found : Finding) : Prop where
  complete : (∀ names x, (place ++ names, x) ∈ d.entries → (p.append names).isTooLong = false) →
    found.failure = none ∧ d.Lists p place extensions ignored (fun _ => True) found.files
  directory : ∀ names, (place ++ names, Entry.dir) ∈ d.entries →
    (p.append names).isTooLong = true → found.files = [] ∧
      ∃ first, (place ++ first, Entry.dir) ∈ d.entries ∧ (p.append first).isTooLong = true ∧
        found.failure = some (.nameTooLong (p.append first).toString)
  file : (∀ names, (place ++ names, Entry.dir) ∈ d.entries → (p.append names).isTooLong = false) →
    ∀ stop f, (place ++ stop, Entry.file f) ∈ d.entries → (p.append stop).isTooLong = true →
      (∀ names g, (place ++ names, Entry.file g) ∈ d.entries → Path.NamesLt names stop →
        (p.append names).isTooLong = false) →
      found.failure = some (.nameTooLong (p.append stop).toString) ∧
        d.Lists p place extensions ignored (Path.NamesLt · stop) found.files

/-! ### Files in order -/

theorem ne_nil_of_mem {f : File} (hdir : d.isDir place = true)
    (h : (place ++ names, Entry.file f) ∈ d.entries) : names ≠ [] := by
  rintro rfl
  rw [List.append_nil] at h
  have hfile := entry_of_mem h
  rw [isDir_iff.mp hdir] at hfile
  cases hfile

theorem isSource_iff (hne : names ≠ []) : isSource extensions ignored names = true ↔
    (∀ name ∈ names, name ∉ ignored) ∧
      ∃ name s, names.getLast? = some name ∧ Path.HasSuffix name s ∧
        Text.lower s ∈ extensions := by
  simp only [isSource, List.getLast?_eq_some_getLast hne, Option.getD_some,
    ← Path.suffixOf_eq_iff]
  simp

theorem nodup_filesBelow (d : Disk) (place : Place) :
    ((d.filesBelow place).map Prod.fst).Nodup := by
  rw [List.Nodup, List.pairwise_map]
  have hplaces := List.pairwise_map.mp d.nodup
  refine hplaces.filterMap _ ?_
  rintro ⟨q, x⟩ ⟨q', x'⟩ hne ⟨names, f⟩ hx ⟨names', f'⟩ hx' hsame
  cases x with
  | dir => cases hx
  | file g =>
    cases x' with
    | dir => cases hx'
    | file g' =>
      obtain ⟨_, hq, he⟩ := Option.map_eq_some_iff.mp hx
      obtain ⟨_, hq', he'⟩ := Option.map_eq_some_iff.mp hx'
      cases he
      cases he'
      cases hsame
      exact hne ((Place.below?_eq_some_iff.mp hq).trans (Place.below?_eq_some_iff.mp hq').symm)

/-- Sorted by comparing names, files whose names all differ are in strict order. -/
theorem pairwise_sorted {files : List (List String × File)} (h : (files.map Prod.fst).Nodup) :
    (files.mergeSort fun x y => comesUpTo x.1 y.1).Pairwise
      fun x y => Path.NamesLt x.1 y.1 := by
  have hsorted : (files.mergeSort fun x y => comesUpTo x.1 y.1).Pairwise
      fun x y => comesUpTo x.1 y.1 = true := by
    refine List.pairwise_mergeSort ?_ ?_ files
    · intro x y z hxy hyz
      rw [comesUpTo_iff] at *
      intro hzx
      rcases IsOrderConnected.conn z.1 y.1 x.1 hzx with hzy | hyx
      · exact hyz hzy
      · exact hxy hyx
    · intro x y
      rw [Bool.or_eq_true, comesUpTo_iff, comesUpTo_iff, ← not_and_or]
      rintro ⟨hyx, hxy⟩
      exact asymm hyx hxy
  have hdiffer := List.pairwise_map.mp
    (((List.mergeSort_perm files fun x y => comesUpTo x.1 y.1).map Prod.fst).nodup_iff.mpr h)
  refine (hsorted.and hdiffer).imp ?_
  rintro x y ⟨hle, hne⟩
  -- Of two different names one comes first, and it is not the second.
  by_contra hnot
  exact hne (Std.Trichotomous.trichotomous x.1 y.1 hnot (comesUpTo_iff.mp hle))

def inOrder (d : Disk) (place : Place) : List (List String × File) :=
  (d.filesBelow place).mergeSort fun x y => comesUpTo x.1 y.1

theorem mem_inOrder {f : File} :
    (names, f) ∈ d.inOrder place ↔ (place ++ names, Entry.file f) ∈ d.entries := by
  rw [inOrder, List.mem_mergeSort, mem_filesBelow]

theorem pairwise_inOrder (d : Disk) (place : Place) :
    (d.inOrder place).Pairwise fun x y => Path.NamesLt x.1 y.1 :=
  pairwise_sorted (nodup_filesBelow d place)

/-! ### What is listed -/

theorem plain_append (hp : p.Plain) {x : Entry} (h : (place ++ names, x) ∈ d.entries) :
    (p.append names).Plain :=
  hp.append fun n hn => (d.named _ h).2 n (List.mem_append_right _ hn)

/-- Paths that are all different have different texts, since a text is read as its path again. -/
theorem nodup_texts {files : List (Path × File)} (hplain : ∀ x ∈ files, x.1.Plain)
    (hsorted : files.Pairwise fun x y => Path.NamesLt x.1.parts y.1.parts) :
    (files.map fun x => x.1.toString).Nodup := by
  rw [List.Nodup, List.pairwise_map]
  refine hsorted.imp_of_mem ?_
  intro x y hx hy hlt htext
  have hsame : x.1 = y.1 := by
    rw [← (hplain x hx).ofString_toString, htext, (hplain y hy).ofString_toString]
  rw [hsame] at hlt
  exact asymm hlt hlt

/-- A part of the files in order, without those that are not sought, is the list that a search
makes if it comes as far as that part goes. -/
theorem lists_of_sublist {reach : List String → Prop} {files : List (List String × File)}
    (hp : p.Plain) (hdir : d.isDir place = true) (hsub : files.Sublist (d.inOrder place))
    (hreach : ∀ x ∈ d.inOrder place, x ∈ files ↔ reach x.1) :
    d.Lists p place extensions ignored reach
      ((files.filter fun x => isSource extensions ignored x.1).map
        fun x => (p.append x.1, x.2)) := by
  have hsorted : ((files.filter fun x => isSource extensions ignored x.1).map
      fun x => (p.append x.1, x.2)).Pairwise fun x y => Path.NamesLt x.1.parts y.1.parts := by
    rw [List.pairwise_map]
    refine ((pairwise_inOrder d place).sublist (List.filter_sublist.trans hsub)).imp ?_
    intro x y hxy
    exact (Path.namesLt_append_iff p.parts).mpr hxy
  refine ⟨?_, hsorted, ?_⟩
  · intro q f
    rw [List.mem_map]
    constructor
    · rintro ⟨⟨names, g⟩, hx, he⟩
      cases he
      obtain ⟨hx, hsource⟩ := List.mem_filter.mp hx
      have hmem := hsub.subset hx
      have hfile := mem_inOrder.mp hmem
      obtain ⟨hseen, hsuffix⟩ := (isSource_iff (ne_nil_of_mem hdir hfile)).mp hsource
      exact ⟨names, rfl, ⟨hfile, hseen, hsuffix⟩, (hreach _ hmem).mp hx⟩
    · rintro ⟨names, rfl, hseeks, hr⟩
      have hx := (hreach (names, f) (mem_inOrder.mpr hseeks.file)).mpr hr
      have hsource := (isSource_iff (ne_nil_of_mem hdir hseeks.file)).mpr
        ⟨hseeks.seen, hseeks.suffix⟩
      exact ⟨(names, f), List.mem_filter.mpr ⟨hx, hsource⟩, rfl⟩
  · refine nodup_texts (fun x hx => ?_) hsorted
    obtain ⟨y, hy, rfl⟩ := List.mem_map.mp hx
    exact plain_append hp (mem_inOrder.mp (hsub.subset (List.mem_of_mem_filter hy)))

theorem tooLong?_eq_none_iff {below : List (List String)} :
    tooLong? p below = none ↔ ∀ names ∈ below, (p.append names).isTooLong = false := by
  rw [tooLong?, Option.map_eq_none_iff, List.find?_eq_none]
  simp

theorem sources_of_dir (hplace : d.placeOf p = .ok place) (hdir : d.isDir place = true) :
    d.sources p extensions ignored = d.sourcesBelow p place extensions ignored := by
  rw [sources, hplace]
  simp only [isDir_iff.mp hdir]

/-- Where no directory has too long a path, files are listed up to the first that has. -/
theorem sourcesBelow_of_split {before after : List (List String × File)}
    (hdirs : ∀ names, (place ++ names, Entry.dir) ∈ d.entries → (p.append names).isTooLong = false)
    (hsplit : d.inOrder place = before ++ after)
    (hbefore : ∀ x ∈ before, (p.append x.1).isTooLong = false)
    (hafter : ∀ x ∈ after.head?, (p.append x.1).isTooLong = true) :
    d.sourcesBelow p place extensions ignored =
      ⟨(before.filter fun x => isSource extensions ignored x.1).map fun x => (p.append x.1, x.2),
        after.head?.map fun x => .nameTooLong (p.append x.1).toString⟩ := by
  have hnone : tooLong? p (d.dirsBelow place) = none :=
    tooLong?_eq_none_iff.mpr fun names hn => hdirs names (mem_dirsBelow.mp hn)
  have hclear : ∀ x ∈ before, (!(p.append x.1).isTooLong) = true := by
    intro x hx
    rw [hbefore x hx]
    rfl
  have hreached : (before ++ after).takeWhile (fun x => !(p.append x.1).isTooLong) = before := by
    rw [List.takeWhile_append_of_pos hclear]
    cases after with
    | nil => simp
    | cons stop after =>
      rw [List.takeWhile_cons_of_neg (by simp [hafter stop rfl]), List.append_nil]
  have hfailure : tooLong? p ((before ++ after).map Prod.fst) =
      after.head?.map fun x => .nameTooLong (p.append x.1).toString := by
    have hskip : before.find? ((fun names => (p.append names).isTooLong) ∘ Prod.fst) = none :=
      List.find?_eq_none.mpr fun x hx => by simp [hbefore x hx]
    rw [tooLong?, List.find?_map, List.find?_append, hskip]
    cases after with
    | nil => rfl
    | cons stop after => simp [hafter stop rfl]
  simp only [sourcesBelow, hnone]
  rw [← inOrder, hsplit, hreached, hfailure]

theorem searches_sourcesBelow (hp : p.Plain) (hdir : d.isDir place = true) :
    d.Searches p place extensions ignored (d.sourcesBelow p place extensions ignored) := by
  refine ⟨?_, ?_, ?_⟩
  · intro hshort
    have hfiles : ∀ x ∈ d.inOrder place, (p.append x.1).isTooLong = false := fun x hx =>
      hshort x.1 _ (mem_inOrder.mp hx)
    rw [sourcesBelow_of_split (fun names => hshort names _) (List.append_nil _).symm hfiles
      (by simp)]
    exact ⟨rfl, lists_of_sublist hp hdir (List.Sublist.refl _) fun x hx => iff_of_true hx trivial⟩
  · intro names hmem hlong
    cases hdirs : tooLong? p (d.dirsBelow place) with
    | none =>
      have hshort := tooLong?_eq_none_iff.mp hdirs names (mem_dirsBelow.mpr hmem)
      rw [hlong] at hshort
      cases hshort
    | some e =>
      obtain ⟨first, hfirst, hlong, rfl⟩ := tooLong?_eq_some hdirs
      have hnothing : d.sourcesBelow p place extensions ignored =
          ⟨[], some (.nameTooLong (p.append first).toString)⟩ := by
        simp only [sourcesBelow, hdirs]
      rw [hnothing]
      exact ⟨rfl, first, mem_dirsBelow.mp hfirst, hlong, rfl⟩
  · intro hdirs stop f hstop hlong hearlier
    obtain ⟨before, after, hsplit⟩ := List.append_of_mem (mem_inOrder.mpr hstop)
    have hsorted := pairwise_inOrder d place
    rw [hsplit, List.pairwise_append] at hsorted
    obtain ⟨_, hafter, hbefore⟩ := hsorted
    have hfirst : ∀ x ∈ before, Path.NamesLt x.1 stop := fun x hx =>
      hbefore x hx _ List.mem_cons_self
    have hmem : ∀ x ∈ before, x ∈ d.inOrder place := by
      intro x hx
      rw [hsplit]
      exact List.mem_append_left _ hx
    rw [sourcesBelow_of_split hdirs hsplit
      (fun x hx => hearlier x.1 x.2 (mem_inOrder.mp (hmem x hx)) (hfirst x hx))
      (by simpa using hlong)]
    refine ⟨rfl, lists_of_sublist hp hdir (hsplit ▸ List.sublist_append_left _ _) ?_⟩
    intro x hx
    refine ⟨hfirst x, fun hlt => ?_⟩
    rw [hsplit] at hx
    rcases List.mem_append.mp hx with hx | hx
    · exact hx
    · rcases List.mem_cons.mp hx with rfl | hx
      · exact absurd hlt (asymm hlt)
      · exact absurd hlt (asymm ((List.pairwise_cons.mp hafter).1 x hx))

/-! ### Directories inside -/

theorem isTooLong_of_complete (hplace : d.placeOf p = .ok place) (hdir : d.isDir place = true)
    (h : (d.sources p extensions ignored).failure = none) {x : Entry}
    (hx : (place ++ names, x) ∈ d.entries) : (p.append names).isTooLong = false := by
  rw [sources_of_dir hplace hdir, sourcesBelow] at h
  split at h
  · cases h
  · next hdirs =>
    cases x with
    | dir => exact tooLong?_eq_none_iff.mp hdirs names (mem_dirsBelow.mpr hx)
    | file f =>
      have hmem : (names, f) ∈ d.inOrder place := mem_inOrder.mpr hx
      exact tooLong?_eq_none_iff.mp h names (List.mem_map.mpr ⟨_, hmem, rfl⟩)

theorem seeks_append_iff {sub : List String} {f : File}
    (hsub : (place ++ sub, Entry.dir) ∈ d.entries) (hseen : ∀ name ∈ sub, name ∉ ignored) :
    d.Seeks place extensions ignored (sub ++ names) f ↔
      d.Seeks (place ++ sub) extensions ignored names f := by
  have hlast : (place ++ sub ++ names, Entry.file f) ∈ d.entries →
      (sub ++ names).getLast? = names.getLast? := by
    intro hfile
    exact List.getLast?_append_of_ne_nil _ (ne_nil_of_mem (isDir_of_mem hsub) hfile)
  constructor
  · rintro ⟨hfile, hclear, hsuffix⟩
    rw [← List.append_assoc] at hfile
    rw [hlast hfile] at hsuffix
    exact ⟨hfile, fun name hn => hclear name (List.mem_append_right _ hn), hsuffix⟩
  · rintro ⟨hfile, hclear, hsuffix⟩
    rw [← hlast hfile] at hsuffix
    rw [List.append_assoc] at hfile
    exact ⟨hfile, List.forall_mem_append.mpr ⟨hseen, hclear⟩, hsuffix⟩

/-- Lists of the same files are the same lists. -/
theorem eq_of_sorted {xs ys : List (Path × File)}
    (hxs : xs.Pairwise fun x y => Path.NamesLt x.1.parts y.1.parts)
    (hys : ys.Pairwise fun x y => Path.NamesLt x.1.parts y.1.parts)
    (h : ∀ x, x ∈ xs ↔ x ∈ ys) : xs = ys := by
  have : Std.Irrefl fun x y : Path × File => Path.NamesLt x.1.parts y.1.parts :=
    ⟨fun _ hlt => asymm hlt hlt⟩
  have : Std.Antisymm fun x y : Path × File => Path.NamesLt x.1.parts y.1.parts :=
    ⟨fun _ _ hlt hgt => absurd hgt (asymm hlt)⟩
  exact hxs.eq_of_mem_iff hys h

theorem Lists.subdirectory {sub : List String} {files inside : List (Path × File)}
    (hall : d.Lists p place extensions ignored (fun _ => True) files)
    (hinside : d.Lists (p.append sub) (place ++ sub) extensions ignored (fun _ => True) inside)
    (hsub : (place ++ sub, Entry.dir) ∈ d.entries) (hseen : ∀ name ∈ sub, name ∉ ignored) :
    inside = files.filter fun x => (p.append sub).parts.isPrefixOf x.1.parts := by
  refine eq_of_sorted hinside.sorted (hall.sorted.filter _) ?_
  rintro ⟨q, f⟩
  rw [List.mem_filter, hinside.mem_iff, hall.mem_iff]
  constructor
  · rintro ⟨names, rfl, hseeks, _⟩
    refine ⟨⟨sub ++ names, p.append_append sub names, ?_, trivial⟩, ?_⟩
    · exact (seeks_append_iff hsub hseen).mpr hseeks
    · exact List.isPrefixOf_iff_prefix.mpr (List.prefix_append _ _)
  · rintro ⟨⟨names, rfl, hseeks, _⟩, hprefix⟩
    obtain ⟨rest, hrest⟩ := List.isPrefixOf_iff_prefix.mp hprefix
    have hnames : sub ++ rest = names := by
      simpa only [Path.append, List.append_assoc, List.append_cancel_left_eq] using hrest
    subst hnames
    exact ⟨rest, (p.append_append sub rest).symm, (seeks_append_iff hsub hseen).mp hseeks, trivial⟩

theorem sources_of_subdirectory {sub : List String} (hp : p.Plain)
    (hplace : d.placeOf p = .ok place) (hdir : d.isDir place = true)
    (hsub : (place ++ sub, Entry.dir) ∈ d.entries) (hseen : ∀ name ∈ sub, name ∉ ignored)
    (hnone : (d.sources p extensions ignored).failure = none) :
    d.sources (p.append sub) extensions ignored =
      ⟨(d.sources p extensions ignored).files.filter
        fun x => (p.append sub).parts.isPrefixOf x.1.parts, none⟩ := by
  have hshort : ∀ names x, (place ++ names, x) ∈ d.entries → (p.append names).isTooLong = false :=
    fun _ _ hx => isTooLong_of_complete hplace hdir hnone hx
  have hshort' : ∀ names x, (place ++ sub ++ names, x) ∈ d.entries →
      ((p.append sub).append names).isTooLong = false := by
    intro names x hx
    rw [List.append_assoc] at hx
    rw [p.append_append]
    exact hshort _ x hx
  have hplace' := placeOf_append hplace hsub (hshort sub _ hsub)
  have hdir' := isDir_of_mem hsub
  obtain ⟨_, hall⟩ := (searches_sourcesBelow hp hdir).complete hshort
  obtain ⟨hnone', hinside⟩ :=
    (searches_sourcesBelow (plain_append hp hsub) hdir').complete hshort'
  rw [sources_of_dir hplace hdir, sources_of_dir hplace' hdir',
    ← hall.subdirectory hinside hsub hseen, ← hnone']

/-! ### A search from a path -/

/-- A file that is named is taken as it is, whatever its name. -/
theorem sources_of_find_file {f : File} (h : d.find p = .ok (some (.file f))) :
    d.sources p extensions ignored = ⟨[(p, f)], none⟩ := by
  unfold find at h
  split at h
  · next place hplace => exact sources_of_file hplace (Except.ok.inj h)
  all_goals cases h

theorem sources_of_find_none (h : d.find p = .ok none) :
    d.sources p extensions ignored = ⟨[], none⟩ := by
  unfold find at h
  rw [sources]
  split at h
  · next place hplace =>
    rw [hplace]
    simp only [Except.ok.inj h]
  · cases h
  · next e hlong hplace =>
    rw [hplace]
    cases e with
    | tooLong => exact absurd rfl hlong
    | missing | notDirectory => rfl

theorem sources_of_find_error {e : Failure} (h : d.find p = .error e) :
    d.sources p extensions ignored = ⟨[], some e⟩ := by
  unfold find at h
  split at h
  · cases h
  · next hplace =>
    cases h
    rw [sources, hplace]
  · cases h

/-- A search takes a file that is named as it is and lists the source files below a directory.
What lies in a directory inside, if no ignored name leads to it, is listed the same way from
there. -/
theorem search_lists_sources (d : Disk) (root : String) (extensions ignored : List String) :
    (∀ f, d.find (.ofString root) = .ok (some (.file f)) →
        d.sources (.ofString root) extensions ignored = ⟨[(.ofString root, f)], none⟩) ∧
      (d.find (.ofString root) = .ok none →
        d.sources (.ofString root) extensions ignored = ⟨[], none⟩) ∧
      (∀ e, d.find (.ofString root) = .error e →
        d.sources (.ofString root) extensions ignored = ⟨[], some e⟩) ∧
      ∀ place, d.placeOf (.ofString root) = .ok place → d.isDir place = true →
        d.Searches (.ofString root) place extensions ignored
            (d.sources (.ofString root) extensions ignored) ∧
          ∀ sub, (place ++ sub, Entry.dir) ∈ d.entries → (∀ name ∈ sub, name ∉ ignored) →
            (d.sources (.ofString root) extensions ignored).failure = none →
            d.sources ((Path.ofString root).append sub) extensions ignored =
              ⟨(d.sources (.ofString root) extensions ignored).files.filter
                fun x => ((Path.ofString root).append sub).parts.isPrefixOf x.1.parts, none⟩ := by
  refine ⟨fun _ => sources_of_find_file, sources_of_find_none, fun _ => sources_of_find_error, ?_⟩
  intro place hplace hdir
  have hp := Path.plain_ofString root
  constructor
  · rw [sources_of_dir hplace hdir]
    exact searches_sourcesBelow hp hdir
  · intro sub hsub hseen hnone
    exact sources_of_subdirectory hp hplace hdir hsub hseen hnone

/-- A directory with names that are compared or cut in special ways. -/
def varied : Disk :=
  [["src", "..rs"], ["src", ".rs"], ["src", "a", "b.RS"], ["src", "a", "c.txt"], ["src", "a-b.rs"],
    ["src", "out", "d.rs"]].foldl (fun d names => d.addFile ⟨"", names⟩ .blank) workplace

theorem sources_varied : varied.sources (.ofString "../w/src//") [".rs"] ["out", "src"] =
    ⟨[["src", "..rs"], ["src", "a", "b.RS"], ["src", "a-b.rs"]].map
      fun names => (⟨"", ".." :: "w" :: names⟩, .blank), none⟩ := by
  have hplace : varied.placeOf (.ofString "../w/src//") = .ok ["w", "src"] := rfl
  rw [sources_of_sorted hplace rfl (by decide +kernel) (by decide +kernel)]
  rfl

/-- The directory `src` is searched although its name is ignored. Its path leads up and down
again, and the paths of the files start with it. -/
theorem search_lists_sources_in_varied :
    varied.Lists (.ofString "../w/src//") ["w", "src"] [".rs"] ["out", "src"] (fun _ => True)
        (varied.sources (.ofString "../w/src//") [".rs"] ["out", "src"]).files ∧
      varied.sources ⟨"", ["..", "w", "src", "a"]⟩ [".rs"] ["out", "src"] =
        ⟨[(⟨"", ["..", "w", "src", "a", "b.RS"]⟩, .blank)], none⟩ := by
  have hplace : varied.placeOf (.ofString "../w/src//") = .ok ["w", "src"] := rfl
  have hnone : (varied.sources (.ofString "../w/src//") [".rs"] ["out", "src"]).failure = none := by
    rw [sources_varied]
  obtain ⟨_, _, _, hbelow⟩ := search_lists_sources varied "../w/src//" [".rs"] ["out", "src"]
  obtain ⟨hsearches, hinside⟩ := hbelow ["w", "src"] hplace rfl
  refine ⟨(hsearches.complete fun _ _ hx => isTooLong_of_complete hplace rfl hnone hx).2, ?_⟩
  refine (hinside ["a"] (List.mem_of_getElem? (i := 4) rfl) (by simp) hnone).trans ?_
  rw [sources_varied]
  rfl

/-- The path of the directory has 4091 bytes. A source file lies in it, and a search refuses the
path of that file. -/
theorem search_stops_at_long_path :
    Settings.inner.placeOf (.ofString (Settings.winding 818).toString) = .ok ["n"] ∧
      Settings.inner.Seeks ["n"] [".rs"] [] ["b.rs"] .blank ∧
      Settings.inner.sources (.ofString (Settings.winding 818).toString) [".rs"] [] =
        ⟨[], some (.nameTooLong ((Settings.winding 818).append ["b.rs"]).toString)⟩ := by
  have hshort : (Settings.winding 818).isTooLong = false := by
    rw [← Path.append_nil (Settings.winding 818), Settings.isTooLong_winding]
    rfl
  have hlong : ((Settings.winding 818).append ["b.rs"]).isTooLong = true :=
    Settings.isTooLong_winding 818 ["b.rs"]
  have hfile : (["n"] ++ ["b.rs"], Entry.file .blank) ∈ Settings.inner.entries :=
    List.mem_of_getElem? (i := 1) rfl
  have hsuffix : Path.HasSuffix "b.rs" ".rs" := Path.suffixOf_eq_iff.mp (by decide +kernel)
  refine ⟨?_, ⟨hfile, by simp, "b.rs", ".rs", rfl, hsuffix, by decide +kernel⟩, ?_⟩
  · rw [Settings.ofString_winding]
    exact Settings.placeOf_winding hshort
  · exact Settings.sources_winding hshort hlong _ _

end Disk

end RustMetrics
