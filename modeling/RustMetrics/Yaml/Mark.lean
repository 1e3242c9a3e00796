import RustMetrics.Failure

/-! Places in a YAML text, and what is said about a text that cannot be read: what was
being read and where it began, what is wrong and where. Each place is shown with
its line and a pointer below it. -/

namespace RustMetrics.Yaml

/-- The characters that end a line. -/
def isBreak (c : Char) : Bool :=
  c == '\n' || c == '\r' || c.toNat == 0x85 || c.toNat == 0x2028 || c.toNat == 0x2029

/-- A place in a text: how many characters are before it, and its line and column, all
counted from zero. -/
structure Mark where
  index : Nat
  line : Nat
  column : Nat
  deriving DecidableEq, Repr

namespace Mark

def start : Mark := ⟨0, 0, 0⟩

/-- The place after a character, which the rest of the text follows. A carriage return
ends a line only if no line feed does, and a byte order mark has no width. -/
def after (m : Mark) (c : Char) (rest : List Char) : Mark :=
  if isBreak c && !(c == '\r' && rest.head? == some '\n') then ⟨m.index + 1, m.line + 1, 0⟩
  else if c.toNat == 0xFEFF then ⟨m.index + 1, m.line, m.column⟩
  else ⟨m.index + 1, m.line, m.column + 1⟩

/-- From this length on, a side of a line is cut short. -/
def cutFrom : Nat := 37

/-- How much is kept of a side that is cut short. -/
def kept : Nat := 32

/-- What is shown of the line before the place. -/
def before (m : Mark) (text : List Char) : List Char :=
  let side := ((text.take m.index).reverse.takeWhile fun c => !isBreak c)
  if cutFrom ≤ side.length then " ... ".toList ++ (side.take kept).reverse else side.reverse

/-- What is shown of the line from the place on. -/
def onwards (m : Mark) (text : List Char) : List Char :=
  let side := (text.drop m.index).takeWhile fun c => !isBreak c
  if cutFrom ≤ side.length then side.take kept ++ " ... ".toList else side

/-- The place in words. -/
def words (m : Mark) (text : List Char) : String :=
  "  in \"<unicode string>\", line " ++ toString (m.line + 1) ++ ", column " ++
    toString (m.column + 1) ++ ":\n    " ++ .ofList (m.before text ++ m.onwards text) ++ "\n" ++
    .ofList (List.replicate (4 + (m.before text).length) ' ') ++ "^"

end Mark

/-- What is wrong with a text. `kind` is the sort of fault; what was being read is left
out where it says nothing. -/
structure Fault where
  kind : String
  doing : Option String := none
  since : Option Mark := none
  problem : String
  place : Option Mark := none
  deriving DecidableEq, Repr

namespace Fault

/-- The beginning is not told if the problem is at the same place. -/
def tellsSince (f : Fault) : Bool :=
  match f.since, f.place with
  | none, _ => false
  | some _, none => true
  | some m, some p => !(m.line == p.line && m.column == p.column)

/-- The fault in words, one part to a line. -/
def words (f : Fault) (text : List Char) : String :=
  "\n".intercalate (f.doing.toList
    ++ (if f.tellsSince then (f.since.map fun m => m.words text).toList else [])
    ++ [f.problem] ++ (f.place.map fun m => m.words text).toList)

def failure (f : Fault) (text : List Char) : Failure := .unreadable f.kind (f.words text)

end Fault

/-- A character as messages show it. The end of a text counts as a null character. -/
def shownChar (c : Char) : String := Text.quoted (.ofList [c])

end RustMetrics.Yaml
