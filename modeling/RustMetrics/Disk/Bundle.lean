import RustMetrics.Disk.Basic

/-! The files of a run as one JSON document. The Rust parser is a program of its own; what
it makes of a file travels with it, and so can what a settings loader made of it. A
document that leaves something out stands for a file that has nothing there. -/

namespace RustMetrics

namespace Json

def items : Json → List Json
  | .arr xs => xs
  | _ => []

def fields : Json → List (String × Json)
  | .obj fs => fs
  | _ => []

def text? : Json → Option String
  | .str s => some s
  | _ => none

def text (j : Json) : String := j.text?.getD ""

/-- A number that counts something. -/
def count : Json → Nat
  | .int n => n.toNat
  | _ => 0

def isTrue : Json → Bool
  | .bool b => b
  | _ => false

end Json

namespace Bundle

mutual

/-- A settings value. A number that is no integer is written out under a key of its
own. -/
def value : Json → Value
  | .null => .null
  | .bool b => .bool b
  | .int n => .int n
  | .str s => .text s
  | .arr xs => .list (values xs)
  | .obj [("$float", .str literal)] => .float literal
  | .obj fs => .map (entries fs)

def values : List Json → List Value
  | [] => []
  | j :: js => value j :: values js

def entries : List (String × Json) → Entries
  | [] => []
  | (k, j) :: fs => (.text k, value j) :: entries fs

end

/-- What a loader made of a file: a value, or the kind and the words of its
refusal. -/
def loaded (j : Json) : Except Failure Value :=
  match j.field? "error" with
  | some kind => .error (.unreadable kind.text ((j.field? "message").getD .null).text)
  | none => .ok (value ((j.field? "value").getD .null))

/-- Bytes written as pairs of hexadecimal digits. -/
def unhex : List Char → List UInt8
  | a :: b :: rest =>
    ((Json.hexValue? a).getD 0 * 16 + (Json.hexValue? b).getD 0).toUInt8 :: unhex rest
  | _ => []

def content (j : Json) : ByteArray :=
  match j.field? "hex" with
  | some digits => ⟨(unhex digits.text.toList).toArray⟩
  | none => ((j.field? "text").getD .null).text.toUTF8

def dumped (j : Json) : Dumped :=
  match j.items with
  | [kind, flags, field, start, stop, childCount] =>
    ⟨kind.text, flags.text, field.text, start.count, stop.count, childCount.count⟩
  | _ => ⟨"", "", "", 0, 0, 0⟩

/-- A source file under a path. -/
def source (path : String) (j : Json) : Source :=
  { path
    bytes := content j
    tree := .ofDump (content j) (((j.field? "nodes").getD .null).items.map dumped)
    broken := ((j.field? "has_error").getD (.bool true)).isTrue }

/-- A file. One that comes without a tree is left to the parser. -/
def file (parser : Parser) (j : Json) : File :=
  let s := source "" j
  let parsed := if (j.field? "nodes").isSome then (s.tree, s.broken) else parser s.bytes
  { bytes := s.bytes
    tree := parsed.1
    broken := parsed.2
    loadedJson := (j.field? "as_json").map loaded
    loadedYaml := (j.field? "as_yaml").map loaded }

/-- A disk with the given files and directories, and the directories that lead to
them, for a run in a directory. -/
def disk (parser : Parser) (cwd : Path) (j : Json) : Disk :=
  let files := ((j.field? "files").getD .null).fields
  let dirs := ((j.field? "dirs").getD .null).items
  let start := ((Disk.empty parser).addDir cwd).enter cwd
  dirs.foldl (fun d path => d.addDir (.ofString path.text))
    (files.foldl (fun d f => d.addFile (.ofString f.1) (file parser f.2)) start)

end Bundle

end RustMetrics
