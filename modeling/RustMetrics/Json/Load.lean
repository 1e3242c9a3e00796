import RustMetrics.Failure
import RustMetrics.Json.Reader
import RustMetrics.Text.Decimal

/-! The value of a JSON text that holds settings. Unlike a document of the program's own it
can have numbers of any sort, and what is wrong with it is told with its place. -/

namespace RustMetrics.Json

/-- What is wrong with a text: something at a character, or a number with too many
digits. -/
inductive Fault where
  | wrong (problem : String) (index : Nat)
  | tooLong (digits : Nat)
  deriving DecidableEq, Repr

namespace Fault

/-- The place of a character, line and column counted from one. -/
def place (index : Nat) (text : List Char) : String :=
  let before := text.take index
  "line " ++ toString (before.count '\n' + 1) ++ " column " ++
    toString ((before.reverse.takeWhile (· != '\n')).length + 1) ++
    " (char " ++ toString index ++ ")"

def failure (text : List Char) : Fault → Failure
  | wrong problem index =>
    .unreadable "JSONDecodeError" (problem ++ ": " ++ place index text)
  | tooLong digits =>
    .unreadable "ValueError" ("Exceeds the limit (" ++ toString Text.maxDigits ++
      " digits) for integer string conversion: value has " ++ toString digits ++
      " digits; use sys.set_int_max_str_digits() to increase the limit")

end Fault

/-- What is still to be read, and how many characters are before it. -/
structure Cursor where
  rest : List Char
  index : Nat

namespace Cursor

def skip (c : Cursor) (n : Nat) : Cursor := ⟨c.rest.drop n, c.index + n⟩

def skipSpace (c : Cursor) : Cursor := c.skip (c.rest.takeWhile isSpace).length

/-- A fault at the next character. -/
def wrong (c : Cursor) (problem : String) : Fault := .wrong problem c.index

end Cursor

/-- The number of the four digits after a `u`. A text cannot end with them. -/
def unitAfter (c : Cursor) : Except Fault (Nat × Cursor) :=
  match unit? (c.rest.drop 1) with
  | some (n, _ :: _) => .ok (n, c.skip 5)
  | _ => .error (c.wrong "Invalid \\uXXXX escape")

/-- What stands for half of a pair that is alone. -/
def loneHalf : Char := Char.ofNat 0xFFFD

/-- A character that is written with its number: one unit, or two that belong together. -/
def numbered (c : Cursor) : Except Fault (Char × Cursor) := do
  let (high, c) ← unitAfter c
  if high < 0xD800 || 0xE000 ≤ high then return (Char.ofNat high, c)
  match c.rest with
  | '\\' :: 'u' :: rest =>
    if 0xDC00 ≤ high || (rest.drop 4).isEmpty then return (loneHalf, c)
    let (low, after) ← unitAfter (c.skip 1)
    if 0xDC00 ≤ low && low < 0xE000 then
      return (Char.ofNat (0x10000 + (high - 0xD800) * 0x400 + (low - 0xDC00)), after)
    else return (loneHalf, c)
  | _ => return (loneHalf, c)

/-- The characters of a string up to its closing quote; `start` is its opening one. Each
turn takes an item of the first list, which has one for each character. -/
def loadChars (start : Nat) : List Char → List Char → Cursor → Except Fault (String × Cursor)
  | [], _, _ => .error (.wrong "Unterminated string starting at" start)
  | _ :: n, found, c =>
    match c.rest with
    | '"' :: _ => .ok (.ofList found.reverse, c.skip 1)
    | '\\' :: 'u' :: _ => do
      let (x, c) ← numbered (c.skip 1)
      loadChars start n (x :: found) c
    | '\\' :: e :: _ =>
      match shortEscape? e with
      | some x => loadChars start n (x :: found) (c.skip 2)
      | none => .error (c.wrong "Invalid \\escape")
    | x :: _ =>
      if x.toNat < 0x20 then .error (c.wrong "Invalid control character at")
      else loadChars start n (x :: found) (c.skip 1)
    | [] => .error (.wrong "Unterminated string starting at" start)

/-- A string from its opening quote on. -/
def loadString (c : Cursor) : Except Fault (String × Cursor) :=
  loadChars c.index c.rest [] (c.skip 1)

/-- The length of an exponent at the start of a text. -/
def exponentLength : List Char → Nat
  | e :: rest =>
    let sign := if rest.head? == some '+' || rest.head? == some '-' then 1 else 0
    let digits := ((rest.drop sign).takeWhile Char.isDigit).length
    if (e == 'e' || e == 'E') && digits != 0 then 1 + sign + digits else 0
  | [] => 0

/-- The length of a fraction at the start of a text. -/
def fractionLength : List Char → Nat
  | '.' :: rest =>
    let digits := (rest.takeWhile Char.isDigit).length
    if digits = 0 then 0 else 1 + digits
  | _ => 0

/-- The length of an integer without a sign. A zero stands alone. -/
def wholeLength : List Char → Nat
  | '0' :: _ => 1
  | rest => (rest.takeWhile Char.isDigit).length

def loadNumber (c : Cursor) : Except Fault (Value × Cursor) :=
  let isNegative := c.rest.head? == some '-'
  let body := if isNegative then c.rest.drop 1 else c.rest
  let whole := wholeLength body
  let fraction := fractionLength (body.drop whole)
  let exponent := exponentLength (body.drop (whole + fraction))
  let length := whole + fraction + exponent
  let after := c.skip (length + (if isNegative then 1 else 0))
  if whole = 0 then .error (c.wrong "Expecting value")
  else if fraction = 0 && exponent = 0 then
    if Text.maxDigits < whole then .error (.tooLong whole)
    else
      let n : Int := Text.ofDigits ((body.take whole).map fun d => d.toNat - '0'.toNat)
      .ok (.int (if isNegative then -n else n), after)
  else
    let x := (Text.Decimal.read? ((body.take length).map Char.toLower)).getD 0
    .ok (.float (Text.Decimal.text (if isNegative then -x else x)), after)

/-- The words that are values. -/
def words : List (String × Value) :=
  [("null", .null), ("true", .bool true), ("false", .bool false), ("NaN", .float "nan"),
    ("Infinity", .float "inf"), ("-Infinity", .float "-inf")]

def word? (c : Cursor) : Option (Value × Cursor) :=
  (words.find? fun w => w.1.toList.isPrefixOf c.rest).map fun w => (w.2, c.skip w.1.length)

mutual

def loadValue : Nat → Cursor → Except Fault (Value × Cursor)
  | 0, c => .error (c.wrong "Expecting value")
  | n + 1, c =>
    match c.rest with
    | '"' :: _ => (loadString c).map fun x => (.text x.1, x.2)
    | '[' :: _ =>
      let c := (c.skip 1).skipSpace
      match c.rest with
      | ']' :: _ => .ok (.list [], c.skip 1)
      | _ => (loadItems n [] c).map fun x => (.list x.1, x.2)
    | '\x7b' :: _ =>
      let c := (c.skip 1).skipSpace
      match c.rest with
      | '\x7d' :: _ => .ok (.map [], c.skip 1)
      | _ => (loadEntries n [] c).map fun x => (.map x.1, x.2)
    | _ => match word? c with
      | some x => .ok x
      | none => loadNumber c

/-- The items of a list from some item on, after those found. -/
def loadItems : Nat → List Value → Cursor → Except Fault (List Value × Cursor)
  | 0, _, c => .error (c.wrong "Expecting value")
  | n + 1, found, c => do
    let (v, c) ← loadValue n c
    let c := c.skipSpace
    match c.rest with
    | ']' :: _ => return ((v :: found).reverse, c.skip 1)
    | ',' :: _ => loadItems n (v :: found) (c.skip 1).skipSpace
    | _ => throw (c.wrong "Expecting ',' delimiter")

/-- The entries of a mapping from some name on, after those found. A later entry replaces
an earlier one of the same name. -/
def loadEntries : Nat → Entries → Cursor → Except Fault (Entries × Cursor)
  | 0, _, c => .error (c.wrong "Expecting value")
  | n + 1, found, c => do
    if c.rest.head? != some '"' then
      throw (c.wrong "Expecting property name enclosed in double quotes")
    let (name, c) ← loadString c
    let c := c.skipSpace
    if c.rest.head? != some ':' then throw (c.wrong "Expecting ':' delimiter")
    let (v, c) ← loadValue n (c.skip 1).skipSpace
    let found := Entries.set name v found
    let c := c.skipSpace
    match c.rest with
    | '\x7d' :: _ => return (found, c.skip 1)
    | ',' :: _ => loadEntries n found (c.skip 1).skipSpace
    | _ => throw (c.wrong "Expecting ',' delimiter")

end

/-- The value of a text, which can have nothing else in it. At most two steps are taken
for each of its characters. -/
def loadAll (text : List Char) : Except Fault Value := do
  if (text.head?.map Char.toNat) == some 0xFEFF then
    throw (.wrong "Unexpected UTF-8 BOM (decode using utf-8-sig)" 0)
  let (v, c) ← loadValue (2 * text.length + 2) (Cursor.skipSpace ⟨text, 0⟩)
  let c := c.skipSpace
  if c.rest.isEmpty then return v else throw (c.wrong "Extra data")

/-- Reads a JSON text. -/
def load (text : String) : Except Failure Value :=
  (loadAll text.toList).mapError fun fault => fault.failure text.toList

end RustMetrics.Json
