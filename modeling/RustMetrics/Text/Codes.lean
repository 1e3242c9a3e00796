import RustMetrics.Text.LetterCase
import RustMetrics.Text.Quoted

/-! Texts as lists of numbers. A text that is written by the numbers of its characters can
have numbers in it that are no characters: the halves of pairs that stand for one
character together. -/

namespace RustMetrics.Text

abbrev Codes := List Nat

namespace Codes

def isHalf (n : Nat) : Bool := 0xD800 ≤ n && n < 0xE000

def ofChars (cs : List Char) : Codes := cs.map Char.toNat

/-- The characters of a text. A half counts as a null character. -/
def chars (cs : Codes) : List Char := cs.map Char.ofNat

/-- The text without halves that some numbers are. -/
def text? (cs : Codes) : Option String := if cs.any isHalf then none else some (.ofList cs.chars)

def escaped (quote : Char) (n : Nat) : List Char :=
  if isHalf n then '\\' :: 'u' :: hex 4 n else Text.escaped quote (Char.ofNat n)

/-- A text as it stands in messages. -/
def quoted (cs : Codes) : String :=
  let q := quoteFor cs.chars
  String.ofList (q :: cs.flatMap (escaped q) ++ [q])

/-- Lower case. A half ends a word. -/
def lower (cs : Codes) : Codes :=
  (cs.splitBy fun a b => !isHalf a && !isHalf b).flatMap fun run =>
    if run.any isHalf then run else ofChars (Text.lower (.ofList (chars run))).toList

end Codes

/-- A byte inside quotes. Only printable ASCII characters stand for themselves. -/
def escapedByte (quote : Char) (b : UInt8) : List Char :=
  let c := Char.ofNat b.toNat
  if b < 0x80 then escaped quote c else '\\' :: 'x' :: hex 2 b.toNat

/-- Bytes as they stand in messages. -/
def quotedBytes (bytes : List UInt8) : String :=
  let q := quoteFor (bytes.map fun b => Char.ofNat b.toNat)
  String.ofList ('b' :: q :: bytes.flatMap (escapedByte q) ++ [q])

end RustMetrics.Text
