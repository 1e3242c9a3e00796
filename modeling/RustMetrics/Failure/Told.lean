import RustMetrics.Failure

/-! Failures as a caller tells them: a kind, and values of any sort in their places.
Two kinds take whatever they are given; the others have a place for each value,
and the number of values must fit. -/

namespace RustMetrics

/-- A failure in a caller's values. -/
inductive Told where
  | general (values : List Value)
  | settings (values : List Value)
  | rejected (path line column detail : Value)
  | unnamedImpl (path line typeText : Value)

/-- The places of a kind of failure: those that must be filled, by name, and the
number of those that may be. -/
structure Places where
  title : String
  required : List String
  optional : Nat
  deriving DecidableEq, Repr

namespace Places

/-- Names one after another, as in a sentence. -/
def listed : List String → String
  | [] => ""
  | [a] => a
  | [a, b] => a ++ " and " ++ b
  | names => ", ".intercalate names.dropLast ++ ", and " ++ names.getLast?.getD ""

def missingText (p : Places) (names : List String) : String :=
  p.title ++ ".__init__() missing " ++ toString names.length ++ " required positional argument" ++
    (if names.length = 1 then "" else "s") ++ ": " ++ listed (names.map Text.quoted)

/-- A failure takes the place before the first value itself, so all counts are one
higher. -/
def surplusText (p : Places) (given : Nat) : String :=
  let least := p.required.length + 1
  p.title ++ ".__init__() takes " ++
    (if p.optional = 0 then toString least
      else "from " ++ toString least ++ " to " ++ toString (least + p.optional)) ++
    " positional arguments but " ++ toString (given + 1) ++ " were given"

/-- What is wrong with a number of values. -/
def fault? (p : Places) (given : Nat) : Option String :=
  if given < p.required.length then some (p.missingText (p.required.drop given))
  else if p.required.length + p.optional < given then some (p.surplusText given)
  else none

def rejected : Places := ⟨"ParseFailure", ["path"], 3⟩

def unnamedImpl : Places := ⟨"NameResolutionError", ["path", "line", "type_text"], 0⟩

end Places

namespace Told

/-- The words of a failure that is told in any number of values. -/
def worded : List Value → String
  | [] => ""
  | [v] => v.plain
  | vs => "(" ++ Value.shownItems vs ++ ")"

/-- Where the parser stopped. Without a line there is only the path. -/
def location (path line column : Value) : String :=
  match line with
  | .null => path.plain
  | line => path.plain ++ ":" ++ line.plain ++ ":" ++ column.plain

def message : Told → String
  | general values => worded values
  | settings values => worded values
  | rejected path line column detail => location path line column ++ ": " ++ detail.plain
  | unnamedImpl path line typeText =>
    path.plain ++ ":" ++ line.plain ++ ": identifier not found for impl of " ++ typeText.shown

/-- What stands in a place, or what counts if nothing does. -/
def placed (values : List Value) (i : Nat) (default : Value) : Value := values[i]?.getD default

/-- Puts values into the places of a kind. -/
def fill (p : Places) (values : List Value) (t : Told) : Except Failure Told :=
  match p.fault? values.length with
  | some words => .error (.misused words)
  | none => .ok t

/-- The failure of a kind with some values. -/
def ofValues (kind : String) (values : List Value) : Except Failure Told :=
  match kind with
  | "CyclomaticError" => .ok (.general values)
  | "ConfigError" => .ok (.settings values)
  | "ParseFailure" =>
    fill .rejected values (.rejected (placed values 0 .null) (placed values 1 .null)
      (placed values 2 .null) (placed values 3 (.text "syntax error")))
  | "NameResolutionError" =>
    fill .unnamedImpl values
      (.unnamedImpl (placed values 0 .null) (placed values 1 .null) (placed values 2 .null))
  | _ => .error (.unknownFailure kind)

end Told

end RustMetrics
