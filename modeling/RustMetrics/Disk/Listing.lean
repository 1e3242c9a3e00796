import RustMetrics.Disk.Basic

/-! Finding source files. A file that is named is taken as it is. Below a directory,
files count by their extension, unless a directory or file on the way has an
ignored name. Files come in the order of their paths, compared name by name. A
path that is too long ends the search: that of a directory at once, since all
directories are read first, and that of a file when its turn comes. -/

namespace RustMetrics

/-- The names from one place to another below it. -/
def Place.below? : Place → Place → Option (List String)
  | [], rest => some rest
  | p :: ps, q :: qs => if p = q then below? ps qs else none
  | _ :: _, [] => none

/-- The files that a search comes upon, in order, and what cut it short. -/
structure Finding where
  files : List (Path × File)
  failure : Option Failure

namespace Disk

/-- The directories below a place, each with the names that lead to it from there. -/
def dirsBelow (d : Disk) (place : Place) : List (List String) :=
  d.entries.filterMap fun
    | (_, .file _) => none
    | (p, .dir) => Place.below? place p

/-- The files below a place, each with the names that lead to it from there. -/
def filesBelow (d : Disk) (place : Place) : List (List String × File) :=
  d.entries.filterMap fun
    | (_, .dir) => none
    | (p, .file f) => (Place.below? place p).map (·, f)

/-- Whether a file below a directory is a source file. -/
def isSource (extensions ignored : List String) (names : List String) : Bool :=
  !names.any ignored.contains &&
    extensions.contains (Text.lower (Path.suffixOf (names.getLast?.getD "")))

/-- Whether a list of names is another or comes before it, compared name by name. -/
def comesUpTo (names others : List String) : Bool :=
  @decide _ (@List.decidableLE String instDecidableEqString String.instLT String.decidableLT
    names others)

/-- The first path below a path that is too long. -/
def tooLong? (path : Path) (below : List (List String)) : Option Failure :=
  (below.find? fun names => (path.append names).isTooLong).map fun names =>
    .nameTooLong (path.append names).toString

/-- The source files below a directory, which has a path and a place. -/
def sourcesBelow (d : Disk) (path : Path) (place : Place) (extensions ignored : List String) :
    Finding :=
  match tooLong? path (d.dirsBelow place) with
  | some e => ⟨[], some e⟩
  | none =>
    let files := (d.filesBelow place).mergeSort fun x y => comesUpTo x.1 y.1
    let reached := files.takeWhile fun x => !(path.append x.1).isTooLong
    ⟨(reached.filter fun x => isSource extensions ignored x.1).map fun x => (path.append x.1, x.2),
      tooLong? path (files.map Prod.fst)⟩

/-- The source files that a path names. -/
def sources (d : Disk) (path : Path) (extensions ignored : List String) : Finding :=
  match d.placeOf path with
  | .error .tooLong => ⟨[], some (.nameTooLong path.toString)⟩
  | .error _ => ⟨[], none⟩
  | .ok place =>
    match d.entry? place with
    | none => ⟨[], none⟩
    | some (.file f) => ⟨[(path, f)], none⟩
    | some .dir => d.sourcesBelow path place extensions ignored

end Disk

end RustMetrics
