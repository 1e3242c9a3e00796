import RustMetrics.Proofs.Disk.Naming
import RustMetrics.Proofs.Except
import RustMetrics.Survey

/-! A survey as many analyses. The files that a path names are reported on one after another, and
each of them can be analysed by its own name, with the same result: its name leads to it
again. So the reports on a directory are those of its files in turn, up to the first that
fails, and that failure is the failure of the whole. Only the search for the files can fail
besides, at a path that is too long. -/

namespace RustMetrics

namespace Survey

variable {wantsGraph : Bool} {last : Option Failure} {files : List (Path × File)}
  {analyse : String → Except Failure (List (Report Fingerprint))}

/-- The names of files that a search found. -/
def namesOf (files : List (Path × File)) : List String := files.map fun f => f.1.toString

/-- Files are reported on in turn, until one cannot be analysed. -/
theorem exists_ofSources_split
    (h : ∀ f ∈ files, analyse f.1.toString = ((Disk.source f).report wantsGraph).map fun r => [r]) :
    ∃ before after parts, namesOf files = before ++ after ∧ before.mapM analyse = .ok parts ∧
      (ofSources wantsGraph last (files.map Disk.source)).reports = parts.flatten ∧
      (after = [] ∧
          (ofSources wantsGraph last (files.map Disk.source)).failure.map Prod.snd = last ∨
        ∃ n rest e, after = n :: rest ∧ analyse n = .error e ∧
          (ofSources wantsGraph last (files.map Disk.source)).failure.map Prod.snd = some e) := by
  induction files with
  | nil =>
    refine ⟨[], [], [], rfl, rfl, rfl, .inl ⟨rfl, ?_⟩⟩
    cases last <;> rfl
  | cons f files ih =>
    have hf := h f List.mem_cons_self
    rw [List.map_cons, ofSources]
    cases hr : (Disk.source f).report wantsGraph with
    | error e =>
      rw [hr] at hf
      exact ⟨[], namesOf (f :: files), [], rfl, rfl, rfl, .inr ⟨_, _, e, rfl, hf, rfl⟩⟩
    | ok r =>
      rw [hr] at hf
      obtain ⟨before, after, parts, hnames, hbefore, hreports, hend⟩ :=
        ih fun f hf => h f (List.mem_cons_of_mem _ hf)
      refine ⟨f.1.toString :: before, after, [r] :: parts, ?_, ?_, ?_, hend⟩
      · exact congrArg (f.1.toString :: ·) hnames
      · rw [List.mapM_cons, hf, hbefore]
        rfl
      · exact congrArg (r :: ·) hreports

theorem all_eq (s : Survey) :
    s.all = (s.failure.map Prod.snd).elim (.ok s.reports) .error := by
  obtain ⟨reports, failure⟩ := s
  cases failure <;> rfl

end Survey

namespace Settings

variable {s : Settings} {d : Disk} {path : String} {extensions : List String}
  {ignored : List Value}

theorem survey_eq (hext : s.extensions = .ok extensions) (hign : s.ignored = .ok ignored)
    (path : String) :
    s.survey d path =
      .ofSources s.wantsGraph (d.sources (.ofString path) extensions (texts ignored)).failure
        ((d.sources (.ofString path) extensions (texts ignored)).files.map Disk.source) := by
  rw [survey, sources, hext, hign]
  rfl

/-- A file that was found can be analysed by its name. -/
theorem analyse_of_mem_sources (hext : s.extensions = .ok extensions)
    (hign : s.ignored = .ok ignored) {f : Path × File}
    (hf : f ∈ (d.sources (.ofString path) extensions (texts ignored)).files) :
    s.analyse d f.1.toString = ((Disk.source f).report s.wantsGraph).map fun r => [r] := by
  obtain ⟨hread, place, hplace, hfile⟩ := Disk.placeOf_of_mem_sources hf
  have hfind : d.find f.1 = .ok (some (.file f.2)) := by
    rw [Disk.find, hplace]
    exact congrArg Except.ok hfile
  rw [analyse, surveyExisting, hread, hfind]
  show (s.survey d f.1.toString).all = _
  rw [survey_eq hext hign, hread, Disk.sources_of_file hplace hfile]
  show (Survey.ofSources s.wantsGraph none [Disk.source f]).all = _
  rw [Survey.ofSources]
  cases (Disk.source f).report s.wantsGraph <;> rfl

/-- The analysis of a path that names something is that of its files, one by one, in the order in
which they are found. It returns all their reports, or fails as the first file that fails;
reports are handed over until then. What can fail besides is the search itself, at an entry
below the path whose own path is too long. -/
theorem analyse_file_by_file {x : Entry} (hext : s.extensions = .ok extensions)
    (hign : s.ignored = .ok ignored) (hpath : d.find (.ofString path) = .ok (some x)) :
    let found := d.sources (.ofString path) extensions (texts ignored)
    let names := Survey.namesOf found.files
    s.analyse d path = (names.mapM (s.analyse d) >>= fun parts =>
      found.failure.elim (.ok parts.flatten) .error) ∧
    (∃ before after parts, names = before ++ after ∧ before.mapM (s.analyse d) = .ok parts ∧
      (s.survey d path).reports = parts.flatten ∧
      (after = [] ∧ (s.survey d path).failure.map Prod.snd = found.failure ∨
        ∃ n rest e, after = n :: rest ∧ s.analyse d n = .error e ∧
          (s.survey d path).failure.map Prod.snd = some e)) ∧
    ∀ e, found.failure = some e → ∃ place below y, d.placeOf (.ofString path) = .ok place ∧
      d.entry? (place ++ below) = some y ∧
      ((Path.ofString path).append below).isTooLong = true ∧
      e = .nameTooLong ((Path.ofString path).append below).toString := by
  intro found names
  have hsplit : ∃ before after parts, names = before ++ after ∧
      before.mapM (s.analyse d) = .ok parts ∧ (s.survey d path).reports = parts.flatten ∧
      (after = [] ∧ (s.survey d path).failure.map Prod.snd = found.failure ∨
        ∃ n rest e, after = n :: rest ∧ s.analyse d n = .error e ∧
          (s.survey d path).failure.map Prod.snd = some e) := by
    rw [survey_eq hext hign path]
    exact Survey.exists_ofSources_split fun f hf => analyse_of_mem_sources hext hign hf
  refine ⟨?_, hsplit, ?_⟩
  · obtain ⟨before, after, parts, hnames, hbefore, hreports, hend⟩ := hsplit
    have hall : s.analyse d path = (s.survey d path).all := by
      rw [analyse, surveyExisting, hpath]
    rw [hall, Survey.all_eq, hreports, hnames]
    rcases hend with ⟨rfl, hlast⟩ | ⟨n, rest, e, rfl, hn, hlast⟩
    · rw [hlast, List.append_nil, hbefore]
      rfl
    · rw [hlast, mapM_append_error hbefore hn]
      rfl
  · intro e he
    rcases Disk.failure_sources he with hlong | ⟨place, below, y, hplace, hmem, hlong, he⟩
    · rw [Disk.find, hlong] at hpath
      cases hpath
    · exact ⟨place, below, y, hplace, Disk.entry_of_mem hmem, hlong, he⟩

/-- A directory whose second file cannot be parsed. -/
def mixed : Disk :=
  ((Disk.workplace.addFile ⟨"", ["src", "a.rs"]⟩ .blank).addFile
    ⟨"", ["src", "b.rs"]⟩ (.ofBytes .refusing "?".toUTF8)).addFile ⟨"", ["src", "c.rs"]⟩ .blank

theorem names_mixed : ∃ ignored, defaults.ignored = .ok ignored ∧
    Survey.namesOf (mixed.sources (.ofString "/w/src") [".rs"] (texts ignored)).files =
      ["/w/src/a.rs", "/w/src/b.rs", "/w/src/c.rs"] := by
  have hplace : mixed.placeOf (.ofString "/w/src") = .ok ["w", "src"] := rfl
  refine ⟨_, rfl, ?_⟩
  rw [Disk.sources_of_sorted hplace rfl (by decide +kernel) (by decide +kernel)]
  decide +kernel

/-- The report on the first file is handed over, and the second file ends the analysis. The
directory is named by a path that does not start where the run does. -/
theorem analyse_file_by_file_in_mixed : ∃ r e, mixed.cwd = ["w"] ∧
    defaults.analyse mixed "/w/src/a.rs" = .ok r ∧
    defaults.analyse mixed "/w/src/b.rs" = .error e ∧ defaults.analyse mixed "/w/src" = .error e ∧
    (defaults.survey mixed "/w/src").reports = r ∧
    (defaults.survey mixed "/w/src").failure.map Prod.snd = some e := by
  obtain ⟨ignored, hign, hnames⟩ := names_mixed
  have hext : defaults.extensions = .ok [".rs"] := rfl
  have hpath : mixed.find (.ofString "/w/src") = .ok (some .dir) := rfl
  obtain ⟨r, ha⟩ : ∃ r, defaults.analyse mixed "/w/src/a.rs" = .ok r := ⟨_, rfl⟩
  obtain ⟨e, hb⟩ : ∃ e, defaults.analyse mixed "/w/src/b.rs" = .error e := ⟨_, rfl⟩
  obtain ⟨hall, ⟨before, after, parts, hsplit, hbefore, hreports, hend⟩, _⟩ :=
    analyse_file_by_file hext hign hpath
  rw [hnames] at hall hsplit
  refine ⟨r, e, rfl, ha, hb, ?_, ?_⟩
  · rw [hall, List.mapM_cons, List.mapM_cons, ha, hb]
    rfl
  · -- Only the first name can stand before the failure.
    rcases mapM_eq_ok_iff.mp hbefore with _ | ⟨hfirst, _ | ⟨hsecond, _⟩⟩
    · grind
    · grind
    · grind

/-- A file in a directory. -/
def inner : Disk := (Disk.empty .refusing).addFile ⟨"", ["n", "b.rs"]⟩ .blank

/-- The directory, left and entered again and again. -/
def winding (k : Nat) : Path := ⟨"", "n" :: (List.replicate k ["..", "n"]).flatten⟩

theorem mem_winding {k : Nat} {part : String} (h : part ∈ (winding k).parts) :
    part = "n" ∨ part = ".." := by
  rcases List.mem_cons.mp h with h | h
  · exact .inl h
  · obtain ⟨pair, hpair, hpart⟩ := List.mem_flatten.mp h
    rw [List.eq_of_mem_replicate hpair] at hpart
    simpa [or_comm] using hpart

theorem ofString_winding (k : Nat) : Path.ofString (winding k).toString = winding k := by
  refine Path.Plain.ofString_toString ⟨.inl rfl, ?_⟩
  intro part hpart
  rcases mem_winding hpart with rfl | rfl <;> decide

theorem isTooLong_winding (k : Nat) (names : List String) :
    ((winding k).append names).isTooLong =
      decide (Path.maxBytes < 5 * k + ("/".intercalate ("n" :: names)).utf8ByteSize) := by
  have hin : "n/".utf8ByteSize = 2 := rfl
  have hup : "../".utf8ByteSize = 3 := rfl
  have hsize : ((winding k).append names).toString.utf8ByteSize =
      5 * k + ("/".intercalate ("n" :: names)).utf8ByteSize := by
    induction k with
    | zero => simp [winding, Path.append, Path.toString]
    | succ k ih =>
      simp only [winding, Path.append, Path.toString] at ih ⊢
      simp [List.replicate_succ] at ih ⊢
      omega
  rw [Path.isTooLong, hsize]

theorem locate_winding (k : Nat) : inner.locate [] (winding k).parts = .ok ["n"] := by
  have hin : inner.locate [] ["n"] = .ok ["n"] := rfl
  have hback : inner.locate ["n"] ["..", "n"] = .ok ["n"] := rfl
  induction k with
  | zero => exact hin
  | succ k ih =>
    have hparts : (winding (k + 1)).parts = (winding k).parts ++ ["..", "n"] := by
      simp [winding, List.replicate_succ']
    rw [hparts, Disk.locate_append ih, hback]

section

variable {k : Nat} (hshort : (winding k).isTooLong = false)

include hshort

theorem placeOf_winding : inner.placeOf (winding k) = .ok ["n"] := by
  have hnul : Disk.hasNul (winding k) = false := by
    refine List.any_eq_false.mpr fun part hpart => ?_
    rcases mem_winding hpart with rfl | rfl <;> decide
  rw [Disk.placeOf, hnul, hshort]
  exact locate_winding k

theorem find_winding : inner.find (.ofString (winding k).toString) = .ok (some .dir) := by
  rw [ofString_winding, Disk.find, placeOf_winding hshort]
  rfl

variable (hlong : ((winding k).append ["b.rs"]).isTooLong = true)

include hlong

theorem sources_winding (extensions ignored : List String) :
    inner.sources (.ofString (winding k).toString) extensions ignored =
      ⟨[], some (.nameTooLong ((winding k).append ["b.rs"]).toString)⟩ := by
  have hdirs : Disk.tooLong? (winding k) (inner.dirsBelow ["n"]) = none := by
    have hbelow : inner.dirsBelow ["n"] = [[]] := by decide +kernel
    rw [hbelow]
    simp [Disk.tooLong?, Path.append_nil, hshort]
  have hfiles : inner.filesBelow ["n"] = [(["b.rs"], .blank)] := rfl
  rw [ofString_winding, Disk.sources_of_sorted (placeOf_winding hshort) rfl hdirs
    (hfiles ▸ List.pairwise_singleton ..), hfiles]
  simp [Disk.tooLong?, hlong]

theorem analyse_winding : defaults.analyse inner (winding k).toString =
    .error (.nameTooLong ((winding k).append ["b.rs"]).toString) := by
  have hext : defaults.extensions = .ok [".rs"] := rfl
  rw [analyse, surveyExisting, find_winding hshort]
  show (defaults.survey inner (winding k).toString).all = _
  rw [survey_eq hext rfl, sources_winding hshort hlong]
  rfl

end

/-- The path of the directory has 4091 bytes, and that of the file in it is too long: no file is
found, so none fails, and still the analysis does. -/
theorem search_alone_can_fail : ∃ ignored, defaults.extensions = .ok [".rs"] ∧
    defaults.ignored = .ok ignored ∧
    inner.find (.ofString (winding 818).toString) = .ok (some .dir) ∧
    (inner.sources (.ofString (winding 818).toString) [".rs"] (texts ignored)).files = [] ∧
    defaults.analyse inner (winding 818).toString =
      .error (.nameTooLong ((winding 818).append ["b.rs"]).toString) := by
  have hshort : (winding 818).isTooLong = false := by
    rw [← Path.append_nil (winding 818), isTooLong_winding]
    rfl
  have hlong : ((winding 818).append ["b.rs"]).isTooLong = true := isTooLong_winding 818 ["b.rs"]
  refine ⟨_, rfl, rfl, find_winding hshort, ?_, analyse_winding hshort hlong⟩
  rw [sources_winding hshort hlong]

end Settings

end RustMetrics
