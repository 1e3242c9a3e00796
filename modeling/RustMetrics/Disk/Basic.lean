import RustMetrics.Disk.Path
import RustMetrics.Json.Load
import RustMetrics.Settings.Basic
import RustMetrics.Source
import RustMetrics.Yaml.Load

/-! The files that a run can see, and the directory it runs in. A file comes with what
its readers make of it, the tree of the Rust parser and, where it is known, the
values of the two settings loaders. -/

namespace RustMetrics

/-- The Rust parser, a program of its own: the tree of a file, and whether it is broken. -/
abbrev Parser := ByteArray → SyntaxTree × Bool

/-- The parser that takes nothing. -/
def Parser.refusing : Parser := fun bytes => (.unparsed bytes, true)

structure File where
  bytes : ByteArray
  tree : SyntaxTree
  broken : Bool
  loadedJson : Option (Except Failure Value) := none
  loadedYaml : Option (Except Failure Value) := none

namespace File

/-- A text as a JSON settings file. -/
def jsonOf (text : String) : Except Failure Value :=
  Json.load (.ofList (Text.withLineFeeds text.toList))

/-- A text as a YAML settings file. -/
def yamlOf (text : String) : Except Failure Value :=
  Yaml.load (.ofList (Text.withLineFeeds text.toList))

/-- A file of which only the content is known. -/
def ofBytes (parser : Parser) (bytes : ByteArray) : File where
  bytes
  tree := (parser bytes).1
  broken := (parser bytes).2

/-- The text of a file. -/
def text (f : File) : String := Utf8.lossy f.bytes.toList

/-- The value of a file as JSON settings. -/
def json (f : File) : Except Failure Value := f.loadedJson.getD (jsonOf f.text)

/-- The value of a file as YAML settings. -/
def yaml (f : File) : Except Failure Value := f.loadedYaml.getD (yamlOf f.text)

end File

inductive Entry where
  | dir
  | file (f : File)

/-- Where an entry is: the names that lead to it from the top. -/
abbrev Place := List String

/-- A name that an entry can have. -/
def isEntryName (name : String) : Bool :=
  name != "" && name != "." && name != ".." && !name.toList.contains '/' &&
    !name.toList.contains (Char.ofNat 0) && name.utf8ByteSize ≤ Path.maxNameBytes

/-- The entries of a disk. No place has two, all names are proper, and what holds an
entry is a directory. The top is a directory that is always there and not
listed. Relative paths start from the directory `cwd`, and `parser` reads what is
written. -/
structure Disk where
  entries : List (Place × Entry)
  cwd : Place
  parser : Parser
  nodup : (entries.map Prod.fst).Nodup
  named : ∀ x ∈ entries, x.1 ≠ [] ∧ ∀ name ∈ x.1, isEntryName name = true
  closed : ∀ x ∈ entries, x.1.dropLast = [] ∨ (x.1.dropLast, Entry.dir) ∈ entries
  settled : cwd = [] ∨ (cwd, Entry.dir) ∈ entries

/-- Why no place can be reached. -/
inductive Gap where
  | missing
  | notDirectory
  | tooLong
  deriving DecidableEq, Repr

namespace Disk

/-- The disk of a parser with nothing on it. -/
def empty (parser : Parser) : Disk where
  entries := []
  cwd := []
  parser
  nodup := List.nodup_nil
  named := fun _ h => absurd h List.not_mem_nil
  closed := fun _ h => absurd h List.not_mem_nil
  settled := .inl rfl

/-- Replaces what stands at a place, or adds it at the end. -/
def put (place : Place) (e : Entry) : List (Place × Entry) → List (Place × Entry)
  | [] => [(place, e)]
  | (p, x) :: rest => if p = place then (place, e) :: rest else (p, x) :: put place e rest

theorem mem_put_of_ne {place : Place} {e : Entry} {entries : List (Place × Entry)}
    {x : Place × Entry} (hx : x ∈ entries) (hne : x.1 ≠ place) : x ∈ put place e entries := by
  induction entries with
  | nil => cases hx
  | cons y rest ih =>
    obtain ⟨p, z⟩ := y
    rw [put]
    rcases List.mem_cons.mp hx with rfl | hx
    · rw [if_neg hne]
      exact List.mem_cons_self
    · split
      · exact List.mem_cons_of_mem _ hx
      · exact List.mem_cons_of_mem _ (ih hx)

theorem mem_put {place : Place} {e : Entry} {entries : List (Place × Entry)}
    (hn : (entries.map Prod.fst).Nodup) {x : Place × Entry} (hx : x ∈ put place e entries) :
    x = (place, e) ∨ (x ∈ entries ∧ x.1 ≠ place) := by
  induction entries with
  | nil => exact .inl (List.mem_singleton.mp hx)
  | cons y rest ih =>
    obtain ⟨p, z⟩ := y
    obtain ⟨hp, hr⟩ := List.nodup_cons.mp hn
    rw [put] at hx
    split at hx
    · next heq =>
      rcases List.mem_cons.mp hx with rfl | hx
      · exact .inl rfl
      · refine .inr ⟨List.mem_cons_of_mem _ hx, ?_⟩
        intro hc
        exact hp (List.mem_map.mpr ⟨x, hx, hc.trans heq.symm⟩)
    · next hne =>
      rcases List.mem_cons.mp hx with rfl | hx
      · exact .inr ⟨List.mem_cons_self, hne⟩
      · rcases ih hr hx with h | ⟨hm, h⟩
        · exact .inl h
        · exact .inr ⟨List.mem_cons_of_mem _ hm, h⟩

theorem nodup_put {place : Place} {e : Entry} {entries : List (Place × Entry)}
    (h : (entries.map Prod.fst).Nodup) : ((put place e entries).map Prod.fst).Nodup := by
  induction entries with
  | nil => exact List.nodup_cons.mpr ⟨List.not_mem_nil, List.nodup_nil⟩
  | cons x rest ih =>
    obtain ⟨q, y⟩ := x
    obtain ⟨hq, hr⟩ := List.nodup_cons.mp h
    rw [put]
    split
    · next heq => exact List.nodup_cons.mpr ⟨heq ▸ hq, hr⟩
    · next hne =>
      refine List.nodup_cons.mpr ⟨?_, ih hr⟩
      intro hm
      obtain ⟨z, hz, he⟩ := List.mem_map.mp hm
      rcases mem_put hr hz with rfl | ⟨hz, _⟩
      · exact hne he.symm
      · exact hq (List.mem_map.mpr ⟨z, hz, he⟩)

theorem mem_of_lookup {place : Place} {e : Entry} {entries : List (Place × Entry)}
    (h : entries.lookup place = some e) : (place, e) ∈ entries := by
  induction entries with
  | nil => cases h
  | cons x rest ih =>
    obtain ⟨p, y⟩ := x
    rw [List.lookup_cons] at h
    by_cases hp : place = p
    · subst hp
      simp only [beq_self_eq_true, Option.some.injEq] at h
      exact h ▸ List.mem_cons_self
    · simp only [beq_eq_false_iff_ne.mpr hp] at h
      exact List.mem_cons_of_mem _ (ih h)

theorem lookup_of_mem {place : Place} {e : Entry} {entries : List (Place × Entry)}
    (hn : (entries.map Prod.fst).Nodup) (h : (place, e) ∈ entries) :
    entries.lookup place = some e := by
  induction entries with
  | nil => cases h
  | cons x rest ih =>
    obtain ⟨p, y⟩ := x
    obtain ⟨hp, hr⟩ := List.nodup_cons.mp hn
    rw [List.lookup_cons]
    rcases List.mem_cons.mp h with he | h
    · cases he
      simp
    · have hne : place ≠ p := fun hc => hp (List.mem_map.mpr ⟨_, h, hc⟩)
      simp only [beq_eq_false_iff_ne.mpr hne]
      exact ih hr h

/-- What is at a place. -/
def entry? (d : Disk) (place : Place) : Option Entry :=
  if place = [] then some .dir else d.entries.lookup place

def isDir (d : Disk) (place : Place) : Bool :=
  match d.entry? place with
  | some .dir => true
  | _ => false

theorem eq_nil_or_mem_of_isDir {d : Disk} {place : Place} (h : d.isDir place = true) :
    place = [] ∨ (place, Entry.dir) ∈ d.entries := by
  unfold isDir entry? at h
  by_cases hp : place = []
  · exact .inl hp
  · rw [if_neg hp] at h
    refine .inr (mem_of_lookup ?_)
    split at h
    · next he => exact he
    · cases h

theorem isDir_of_mem {d : Disk} {place : Place} (h : (place, Entry.dir) ∈ d.entries) :
    d.isDir place = true := by
  unfold isDir entry?
  rw [if_neg (d.named _ h).1, lookup_of_mem d.nodup h]

/-- Whether an entry can be put under a name into a directory: the directory is
there, and no other directory has to go. -/
def fits (d : Disk) (here : Place) (name : String) : Bool :=
  isEntryName name && d.isDir here && !d.isDir (here ++ [name])

theorem closed_put {d : Disk} {here : Place} {name : String} (e : Entry)
    (h : d.fits here name = true) :
    ∀ x ∈ put (here ++ [name]) e d.entries,
      x.1.dropLast = [] ∨ (x.1.dropLast, Entry.dir) ∈ put (here ++ [name]) e d.entries := by
  simp only [fits, Bool.and_eq_true, Bool.not_eq_true'] at h
  obtain ⟨⟨_, hdir⟩, hnew⟩ := h
  intro x hx
  rcases mem_put d.nodup hx with rfl | ⟨hx, _⟩
  · simp only [List.dropLast_concat]
    rcases eq_nil_or_mem_of_isDir hdir with h | h
    · exact .inl h
    · refine .inr (mem_put_of_ne h ?_)
      intro hc
      simpa using congrArg List.length hc
  · rcases d.closed x hx with h | h
    · exact .inl h
    · refine .inr (mem_put_of_ne h ?_)
      intro hc
      have := isDir_of_mem h
      rw [show x.1.dropLast = here ++ [name] from hc, hnew] at this
      cases this

theorem named_put {d : Disk} {here : Place} {name : String} (e : Entry)
    (h : d.fits here name = true) :
    ∀ x ∈ put (here ++ [name]) e d.entries, x.1 ≠ [] ∧ ∀ n ∈ x.1, isEntryName n = true := by
  simp only [fits, Bool.and_eq_true, Bool.not_eq_true'] at h
  obtain ⟨⟨hname, hdir⟩, _⟩ := h
  intro x hx
  rcases mem_put d.nodup hx with rfl | ⟨hx, _⟩
  · refine ⟨by simp, ?_⟩
    intro n hn
    rcases List.mem_append.mp hn with hn | hn
    · rcases eq_nil_or_mem_of_isDir hdir with h | h
      · rw [h] at hn
        cases hn
      · exact (d.named _ h).2 n hn
    · rw [List.mem_singleton.mp hn]
      exact hname
  · exact d.named x hx

theorem settled_put {d : Disk} {here : Place} {name : String} (e : Entry)
    (h : d.fits here name = true) :
    d.cwd = [] ∨ (d.cwd, Entry.dir) ∈ put (here ++ [name]) e d.entries := by
  simp only [fits, Bool.and_eq_true, Bool.not_eq_true'] at h
  refine d.settled.imp_right fun hcwd => mem_put_of_ne hcwd ?_
  rintro (hc : d.cwd = here ++ [name])
  have := isDir_of_mem hcwd
  rw [hc, h.2] at this
  cases this

/-- Puts an entry under a name into a directory. Where it does not fit, nothing
changes. -/
def add (d : Disk) (here : Place) (name : String) (e : Entry) : Disk :=
  if h : d.fits here name = true then
    { d with
      entries := put (here ++ [name]) e d.entries
      nodup := nodup_put d.nodup
      named := named_put e h
      closed := closed_put e h
      settled := settled_put e h }
  else d

/-- Puts an entry at a place, in the directory that leads there. -/
def addAt (d : Disk) (place : Place) (e : Entry) : Disk :=
  match place.getLast? with
  | none => d
  | some name => d.add place.dropLast name e

/-- Where a path starts. -/
def start (d : Disk) (path : Path) : Place := if path.root.isEmpty then d.cwd else []

/-- Adds the directories that names lead through, also those that `..` leaves again. -/
def addDirs (d : Disk) (above : Place) : List String → Disk
  | [] => d
  | name :: names =>
    if name != ".." then (d.add above name .dir).addDirs (above ++ [name]) names
    else d.addDirs above.dropLast names

def addDir (d : Disk) (path : Path) : Disk := d.addDirs (d.start path) path.parts

/-- The place that names lead to from a directory. All but the last must be
directories; whether the last is there is left open. A name is only measured
once the directory that should hold it is found. From the top, `..` leads to the
top. -/
def locate (d : Disk) (here : Place) : List String → Except Gap Place
  | [] => .ok here
  | name :: names =>
    match d.entry? here with
    | none => .error .missing
    | some (.file _) => .error .notDirectory
    | some .dir =>
      if Path.maxNameBytes < name.utf8ByteSize then .error .tooLong
      else if name != ".." then d.locate (here ++ [name]) names
      else d.locate here.dropLast names

/-- Adds a file and the directories on the way to it. -/
def addFile (d : Disk) (path : Path) (f : File) : Disk :=
  let d := d.addDirs (d.start path) path.parts.dropLast
  match d.locate (d.start path) path.parts with
  | .ok place => d.addAt place (.file f)
  | .error _ => d

def hasNul (path : Path) : Bool := path.parts.any fun p => p.toList.contains (Char.ofNat 0)

/-- The place of a path. -/
def placeOf (d : Disk) (path : Path) : Except Gap Place :=
  if hasNul path then .error .missing
  else if path.isTooLong then .error .tooLong
  else d.locate (d.start path) path.parts

/-- The same disk with the directory of a path to run in. -/
def enter (d : Disk) (path : Path) : Disk :=
  match d.placeOf path with
  | .error _ => d
  | .ok place =>
    if h : d.isDir place = true then
      { d with cwd := place, settled := eq_nil_or_mem_of_isDir h }
    else d

/-- What a path names, if it names something. A path that is too long cannot even be
looked up. -/
def find (d : Disk) (path : Path) : Except Failure (Option Entry) :=
  match d.placeOf path with
  | .ok place => .ok (d.entry? place)
  | .error .tooLong => .error (.nameTooLong path.toString)
  | .error _ => .ok none

/-- Whether a path names something. One that cannot be looked up does not. -/
def holds (d : Disk) (path : Path) : Bool :=
  match d.find path with
  | .ok found => found.isSome
  | .error _ => false

/-- Writes a file. Its directory must be there, and it must not be one itself. Where
the same content is there already, nothing changes. -/
def write (d : Disk) (path : Path) (text : String) : Except Failure Disk :=
  if hasNul path then .error .nulInPath
  else match d.placeOf path with
    | .error .missing => .error (.noEntry path.toString)
    | .error .notDirectory => .error (.notDirectory path.toString)
    | .error .tooLong => .error (.nameTooLong path.toString)
    | .ok place =>
      match d.entry? place with
      | some .dir => .error (.isDirectory path.toString)
      | some (.file f) =>
        .ok (if f.bytes.data = text.toUTF8.data then d
          else d.addAt place (.file (.ofBytes d.parser text.toUTF8)))
      | none => .ok (d.addAt place (.file (.ofBytes d.parser text.toUTF8)))

/-- The files that are new on a disk or have other content than on an earlier one. -/
def changesSince (d earlier : Disk) : List (Place × File) :=
  d.entries.filterMap fun
    | (_, .dir) => none
    | (place, .file f) =>
      match earlier.entry? place with
      | some (.file g) => if f.bytes.data = g.bytes.data then none else some (place, f)
      | _ => some (place, f)

end Disk

end RustMetrics
