import RustMetrics.Json.Basic
import RustMetrics.Text.Quoted

/-! Writing JSON over several lines. Each item and field has a line of its own, two
blanks deeper than what holds it; empty arrays and objects stay on one line. Only
ASCII is written: any other character is escaped in UTF-16 units. -/

namespace RustMetrics.Json

def unitEscape (n : Nat) : List Char := '\\' :: 'u' :: Text.hex 4 n

/-- A character outside the first plane takes two units. -/
def escaped (c : Char) : List Char :=
  if c == '"' || c == '\\' then ['\\', c]
  else if c == '\n' then ['\\', 'n']
  else if c == '\r' then ['\\', 'r']
  else if c == '\t' then ['\\', 't']
  else if c.toNat == 0x0C then ['\\', 'f']
  else if c.toNat == 0x08 then ['\\', 'b']
  else if 0x20 ≤ c.toNat && c.toNat ≤ 0x7E then [c]
  else if c.toNat < 0x10000 then unitEscape c.toNat
  else
    unitEscape (0xD800 + (c.toNat - 0x10000) / 0x400) ++
      unitEscape (0xDC00 + (c.toNat - 0x10000) % 0x400)

def stringChars (s : String) : List Char := '"' :: s.toList.flatMap escaped ++ ['"']

/-- The start of a line at a depth. -/
def newLine (depth : Nat) : List Char := '\n' :: List.replicate (2 * depth) ' '

mutual

/-- The text of a value at a depth, before `rest`. -/
def write (depth : Nat) (rest : List Char) : Json → List Char
  | null => 'n' :: 'u' :: 'l' :: 'l' :: rest
  | bool true => 't' :: 'r' :: 'u' :: 'e' :: rest
  | bool false => 'f' :: 'a' :: 'l' :: 's' :: 'e' :: rest
  | int n => (toString n).toList ++ rest
  | str s => stringChars s ++ rest
  | arr [] => '[' :: ']' :: rest
  | arr (v :: vs) =>
    '[' :: newLine (depth + 1) ++
      write (depth + 1) (writeItems (depth + 1) (newLine depth ++ ']' :: rest) vs) v
  | obj [] => '\x7b' :: '\x7d' :: rest
  | obj ((k, v) :: fs) =>
    '\x7b' :: newLine (depth + 1) ++ stringChars k ++ ':' :: ' ' ::
      write (depth + 1) (writeFields (depth + 1) (newLine depth ++ '\x7d' :: rest) fs) v

def writeItems (depth : Nat) (rest : List Char) : List Json → List Char
  | [] => rest
  | v :: vs => ',' :: newLine depth ++ write depth (writeItems depth rest vs) v

def writeFields (depth : Nat) (rest : List Char) : List (String × Json) → List Char
  | [] => rest
  | (k, v) :: fs =>
    ',' :: newLine depth ++ stringChars k ++ ':' :: ' ' :: write depth (writeFields depth rest fs) v

end

def render (j : Json) : String := String.ofList (j.write 0 [])

end RustMetrics.Json
