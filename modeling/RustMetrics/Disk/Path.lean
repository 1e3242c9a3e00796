/-! Paths. Repeated slashes, a slash at the end and the name `.` mean nothing and
vanish; `..` stays, since what it leads to depends on the disk. -/

namespace RustMetrics

/-- `root` is empty for a relative path. -/
structure Path where
  root : String
  parts : List String
  deriving DecidableEq, Repr

namespace Path

/-- The pieces between slashes. -/
def pieces : List Char → List (List Char)
  | [] => [[]]
  | c :: cs =>
    if c = '/' then [] :: pieces cs
    else match pieces cs with
      | [] => [[c]]
      | p :: ps => (c :: p) :: ps

/-- Exactly two slashes in front are a root of their own. -/
def rootOf : List Char → String
  | '/' :: '/' :: '/' :: _ => "/"
  | '/' :: '/' :: _ => "//"
  | '/' :: _ => "/"
  | _ => ""

def isName (p : String) : Bool := p != "" && p != "."

def ofString (s : String) : Path where
  root := rootOf s.toList
  parts := ((pieces s.toList).map String.ofList).filter isName

def toString (p : Path) : String :=
  if p.root.isEmpty && p.parts.isEmpty then "." else p.root ++ "/".intercalate p.parts

/-- The most bytes that a disk takes in one path. -/
def maxBytes : Nat := 4095

/-- The most bytes that a disk takes in one name. -/
def maxNameBytes : Nat := 255

def isTooLong (p : Path) : Bool := maxBytes < p.toString.utf8ByteSize

/-- A path below a path. -/
def append (p : Path) (names : List String) : Path := ⟨p.root, p.parts ++ names⟩

/-- The extension of a name, with its dot: what stands from the last dot on, unless
nothing stands before or after it. -/
def suffixOf (name : String) : String :=
  let reversed := name.toList.reverse
  let last := reversed.takeWhile (· != '.')
  match reversed.dropWhile (· != '.') with
  | _ :: before =>
    if last.isEmpty || before.isEmpty then "" else String.ofList ('.' :: last.reverse)
  | [] => ""

def suffix (p : Path) : String := suffixOf (p.parts.getLast?.getD "")

end Path

end RustMetrics
