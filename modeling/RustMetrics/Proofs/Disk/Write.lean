import RustMetrics.Disk.Basic

/-! Writing a file. A write that succeeds leaves the text at the place that the path names,
and every other entry as it was. For that the place must be one that an entry can have:
the names of a path have no slash in them, and all but the last are walked through as
directories, so the directory of the file is there and its own name is proper. -/

namespace RustMetrics

namespace Path

theorem slash_notMem_of_mem_pieces {cs : List Char} : ∀ p ∈ pieces cs, '/' ∉ p := by
  induction cs with
  | nil =>
    intro p hp
    rw [pieces] at hp
    rw [List.mem_singleton.mp hp]
    exact List.not_mem_nil
  | cons c cs ih =>
    intro p hp
    rw [pieces] at hp
    split at hp
    · rcases List.mem_cons.mp hp with rfl | hp
      · exact List.not_mem_nil
      · exact ih p hp
    · next hc =>
      split at hp
      · rw [List.mem_singleton.mp hp]
        simpa using Ne.symm hc
      · next q qs hq =>
        rcases List.mem_cons.mp hp with rfl | hp
        · intro hm
          rcases List.mem_cons.mp hm with h | h
          · exact hc h.symm
          · exact ih q (hq ▸ List.mem_cons_self) h
        · exact ih p (hq ▸ List.mem_cons_of_mem _ hp)

theorem isName_of_mem_parts {s name : String} (h : name ∈ (ofString s).parts) :
    isName name = true ∧ '/' ∉ name.toList := by
  obtain ⟨hpiece, hname⟩ := List.mem_filter.mp h
  obtain ⟨p, hp, rfl⟩ := List.mem_map.mp hpiece
  refine ⟨hname, ?_⟩
  rw [String.toList_ofList]
  exact slash_notMem_of_mem_pieces p hp

end Path

namespace Disk

variable {d : Disk} {here place : Place} {name : String}

theorem lookup_put (place q : Place) (e : Entry) (entries : List (Place × Entry)) :
    (put place e entries).lookup q = if q = place then some e else entries.lookup q := by
  induction entries with
  | nil =>
    rw [put, List.lookup_cons]
    split <;> simp_all
  | cons x rest ih =>
    obtain ⟨p, y⟩ := x
    rw [put]
    by_cases hp : p = place
    · subst hp
      rw [if_pos rfl, List.lookup_cons, List.lookup_cons]
      by_cases hq : q = p
      · simp [hq]
      · simp [hq, beq_eq_false_iff_ne.mpr hq]
    · rw [if_neg hp, List.lookup_cons, List.lookup_cons, ih]
      by_cases hq : q = p
      · subst hq
        simp [hp]
      · simp [beq_eq_false_iff_ne.mpr hq]

theorem entry_add (h : d.fits here name = true) (e : Entry) (q : Place) :
    Disk.entry? (d.add here name e) q = if q = here ++ [name] then some e else d.entry? q := by
  rw [add, dif_pos h, entry?, entry?, lookup_put]
  by_cases hq : q = []
  · subst hq
    simp
  · rw [if_neg hq, if_neg hq]

theorem isDir_iff : d.isDir place = true ↔ d.entry? place = some .dir := by
  unfold isDir
  split
  · next h => simp [h]
  · next h => simpa using h

/-- What holds a directory is a directory. -/
theorem isDir_dropLast (h : d.isDir place = true) : d.isDir place.dropLast = true := by
  rcases eq_nil_or_mem_of_isDir h with rfl | h
  · rfl
  · rcases d.closed _ h with hnil | hmem
    · rw [show place.dropLast = [] from hnil]
      rfl
    · exact isDir_of_mem hmem

/-- Names lead to where they start, to a directory, or to a name in a directory. -/
theorem locate_cases {names : List String} (h : d.locate here names = .ok place) :
    place = here ∨ d.isDir place = true ∨
      ∃ above name, place = above ++ [name] ∧ d.isDir above = true ∧ name ∈ names ∧
        name ≠ ".." ∧ name.utf8ByteSize ≤ Path.maxNameBytes := by
  induction names generalizing here with
  | nil =>
    rw [locate] at h
    exact .inl (Except.ok.inj h).symm
  | cons name names ih =>
    rw [locate] at h
    split at h
    · cases h
    · cases h
    · next hdir =>
      split at h
      · cases h
      · next hsize =>
        split at h
        · next hup =>
          rcases ih h with rfl | hplace | ⟨above, last, hplace, habove, hlast, hne⟩
          · exact .inr (.inr ⟨here, name, rfl, isDir_iff.mpr hdir, List.mem_cons_self,
              by simpa using hup, Nat.le_of_not_lt hsize⟩)
          · exact .inr (.inl hplace)
          · exact .inr (.inr ⟨above, last, hplace, habove, List.mem_cons_of_mem _ hlast, hne⟩)
        · rcases ih h with rfl | hplace | ⟨above, last, hplace, habove, hlast, hne⟩
          · exact .inr (.inl (isDir_dropLast (isDir_iff.mpr hdir)))
          · exact .inr (.inl hplace)
          · exact .inr (.inr ⟨above, last, hplace, habove, List.mem_cons_of_mem _ hlast, hne⟩)

theorem isDir_cwd (d : Disk) : d.isDir d.cwd = true := by
  rcases d.settled with htop | hmem
  · rw [htop]
    rfl
  · exact isDir_of_mem hmem

/-- Paths start from directories. -/
theorem isDir_start (d : Disk) (path : Path) : d.isDir (d.start path) = true := by
  rw [start]
  split
  · exact d.isDir_cwd
  · rfl

theorem placeOf_eq_ok {path : Path} (h : d.placeOf path = .ok place) :
    hasNul path = false ∧ d.locate (d.start path) path.parts = .ok place := by
  unfold placeOf at h
  split at h
  · cases h
  · next hnul =>
    split at h
    · cases h
    · exact ⟨by simpa using hnul, h⟩

theorem nul_notMem_of_hasNul {path : Path} (h : hasNul path = false) (hname : name ∈ path.parts) :
    Char.ofNat 0 ∉ name.toList := by
  rw [hasNul, List.any_eq_false] at h
  simpa using h name hname

/-- What a path leads to by a name other than `..` can be an entry. -/
theorem isEntryName_of_mem_parts {s : String} (hnul : hasNul (.ofString s) = false)
    (h : name ∈ (Path.ofString s).parts) (hup : name ≠ "..")
    (hsize : name.utf8ByteSize ≤ Path.maxNameBytes) : isEntryName name = true := by
  obtain ⟨hname, hslash⟩ := Path.isName_of_mem_parts h
  rw [Path.isName, Bool.and_eq_true] at hname
  simp [isEntryName, hname.1, hname.2, hup, hslash, nul_notMem_of_hasNul hnul h, hsize]

/-- A place that a path names and where no directory is can take a file. -/
theorem exists_fits_of_placeOf {s : String} (h : d.placeOf (.ofString s) = .ok place)
    (hdir : d.entry? place ≠ some .dir) :
    ∃ here name, place = here ++ [name] ∧ d.fits here name = true := by
  have hnot : d.isDir place = false := by
    rw [← Bool.not_eq_true, isDir_iff]
    exact hdir
  obtain ⟨hnul, hlocate⟩ := placeOf_eq_ok h
  rcases locate_cases hlocate with rfl | hplace | ⟨here, name, rfl, hhere, hmem, hup, hsize⟩
  · exact absurd (isDir_iff.mp (d.isDir_start _)) hdir
  · exact absurd (isDir_iff.mp hplace) hdir
  · refine ⟨here, name, rfl, ?_⟩
    rw [fits, hhere, hnot, isEntryName_of_mem_parts hnul hmem hup hsize]
    rfl

theorem entry_addAt {e : Entry} (h : d.fits here name = true) (q : Place) :
    Disk.entry? (d.addAt (here ++ [name]) e) q =
      if q = here ++ [name] then some e else d.entry? q := by
  rw [addAt, List.getLast?_concat, List.dropLast_concat]
  exact entry_add h e q

theorem cwd_addAt (d : Disk) (place : Place) (e : Entry) : (d.addAt place e).cwd = d.cwd := by
  unfold addAt
  split
  · rfl
  · unfold add
    split <;> rfl

/-- There is a file with the given text at a place, and all else is as on an earlier disk. -/
structure Wrote (earlier d : Disk) (place : Place) (text : String) : Prop where
  there : ∃ f, d.entry? place = some (.file f) ∧ f.bytes = text.toUTF8
  others : ∀ q, q ≠ place → d.entry? q = earlier.entry? q
  cwd : d.cwd = earlier.cwd

theorem wrote_addAt {text : String} (h : d.fits here name = true) :
    Wrote d (d.addAt (here ++ [name]) (.file (.ofBytes d.parser text.toUTF8)))
      (here ++ [name]) text := by
  refine ⟨⟨.ofBytes d.parser text.toUTF8, ?_, rfl⟩, ?_, d.cwd_addAt _ _⟩
  · rw [entry_addAt h, if_pos rfl]
  · intro q hq
    rw [entry_addAt h, if_neg hq]

/-- A write that succeeds puts the text where the path leads, and changes nothing else. -/
theorem wrote_of_write {d' : Disk} {s text : String} (h : d.write (.ofString s) text = .ok d') :
    ∃ place, d.placeOf (.ofString s) = .ok place ∧ Wrote d d' place text := by
  unfold write at h
  split at h
  · cases h
  · split at h
    · cases h
    · cases h
    · cases h
    · next place hplace =>
      refine ⟨place, hplace, ?_⟩
      split at h
      · cases h
      · next f hf =>
        obtain ⟨here, name, rfl, hfits⟩ := exists_fits_of_placeOf hplace (by rw [hf]; simp)
        split at h
        · next hsame =>
          cases h
          exact ⟨⟨f, hf, ByteArray.ext hsame⟩, fun q _ => rfl, rfl⟩
        · cases h
          exact wrote_addAt hfits
      · next hf =>
        obtain ⟨here, name, rfl, hfits⟩ := exists_fits_of_placeOf hplace (by rw [hf]; simp)
        cases h
        exact wrote_addAt hfits

/-- A disk with one directory, which is empty and there to run in. -/
def workplace : Disk := ((empty .refusing).addDir ⟨"/", ["w"]⟩).enter ⟨"/", ["w"]⟩

end Disk

/-- A file with nothing in it. -/
def File.blank : File := ⟨.empty, .empty, false, none, none⟩

end RustMetrics
