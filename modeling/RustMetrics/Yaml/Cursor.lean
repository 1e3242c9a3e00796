import RustMetrics.Yaml.Mark

/-! Reading a YAML text character by character. -/

namespace RustMetrics.Yaml

/-- What is still to be read, and where that begins. -/
structure Cursor where
  rest : List Char
  mark : Mark

/-- What stands for the end of a text. No text holds it. -/
def endChar : Char := Char.ofNat 0

/-- A line break or the end. -/
def endsLine (c : Char) : Bool := c == endChar || isBreak c

/-- A line break, the end, or a space. -/
def endsWord (c : Char) : Bool := c == ' ' || endsLine c

/-- A line break, the end, a space or a tab. -/
def isGap (c : Char) : Bool := c == '\t' || endsWord c

def isLetterOrDigit (c : Char) : Bool :=
  ('0' ≤ c && c ≤ '9') || ('A' ≤ c && c ≤ 'Z') || ('a' ≤ c && c ≤ 'z')

/-- The characters of names. -/
def isNameChar (c : Char) : Bool := isLetterOrDigit c || c == '-' || c == '_'

def isHexChar (c : Char) : Bool :=
  ('0' ≤ c && c ≤ '9') || ('A' ≤ c && c ≤ 'F') || ('a' ≤ c && c ≤ 'f')

def hexDigit (c : Char) : Nat :=
  if c ≤ '9' then c.toNat - '0'.toNat
  else if c ≤ 'F' then c.toNat - 'A'.toNat + 10
  else c.toNat - 'a'.toNat + 10

def hexNumber (cs : List Char) : Nat := cs.foldl (fun n c => n * 16 + hexDigit c) 0

namespace Cursor

def ofText (text : List Char) : Cursor := ⟨text, .start⟩

/-- More items than there are characters. A loop that goes past a character at each turn
takes an item each time, and never comes to the end of them. -/
def bound (c : Cursor) : List Char := endChar :: c.rest

/-- The character some steps ahead. -/
def peek (c : Cursor) (steps : Nat) : Char := c.rest[steps]?.getD endChar

/-- The next character. -/
def head (c : Cursor) : Char := c.rest.head?.getD endChar

/-- Goes past one character. -/
def next (c : Cursor) : Cursor :=
  match c.rest with
  | [] => c
  | x :: xs => ⟨xs, c.mark.after x xs⟩

/-- Goes past some characters. -/
def skip (c : Cursor) : Nat → Cursor
  | 0 => c
  | n + 1 => c.next.skip n

def skipWhileFrom (p : Char → Bool) : List Char → Mark → Cursor
  | [], m => ⟨[], m⟩
  | x :: xs, m => if p x then skipWhileFrom p xs (m.after x xs) else ⟨x :: xs, m⟩

/-- Goes past all characters of a sort. -/
def skipWhile (c : Cursor) (p : Char → Bool) : Cursor := skipWhileFrom p c.rest c.mark

/-- The characters of a sort that come next. -/
def run (c : Cursor) (p : Char → Bool) : List Char := c.rest.takeWhile p

/-- Goes past a line break. All but two sorts of line break are read as a line feed. -/
def lineBreak? (c : Cursor) : Option (Char × Cursor) :=
  match c.rest with
  | '\r' :: '\n' :: _ => some ('\n', c.next.next)
  | x :: _ =>
    if x.toNat == 0x2028 || x.toNat == 0x2029 then some (x, c.next)
    else if isBreak x then some ('\n', c.next)
    else none
  | [] => none

/-- Whether a line that separates documents begins here. -/
def atSeparator (c : Cursor) : Bool :=
  (c.rest.take 3 == "---".toList || c.rest.take 3 == "...".toList) && isGap (c.peek 3)

/-- Goes to the end of a comment, if one begins here. -/
def skipComment (c : Cursor) : Cursor :=
  if c.head == '#' then c.skipWhile fun x => !isBreak x else c

end Cursor

end RustMetrics.Yaml
