import RustMetrics.Text.Codes

/-! Data in base 64. Four characters make three bytes, and characters that have no value
are passed over. -/

namespace RustMetrics.Yaml.Base64

/-- The value of a character. -/
def value? (c : Char) : Option Nat :=
  if 'A' ≤ c && c ≤ 'Z' then some (c.toNat - 'A'.toNat)
  else if 'a' ≤ c && c ≤ 'z' then some (c.toNat - 'a'.toNat + 26)
  else if '0' ≤ c && c ≤ '9' then some (c.toNat - '0'.toNat + 52)
  else if c == '+' then some 62
  else if c == '/' then some 63
  else none

/-- The values of the characters, and whether padding completes the last four. `pads`
counts the padding since the last of them, and `found` stands from the last to the
first. -/
def values (found : List Nat) (pads : Nat) : List Char → List Nat × Bool
  | [] => (found.reverse, found.length % 4 = 0)
  | c :: cs =>
    match value? c with
    | some v => values (v :: found) 0 cs
    | none =>
      let last := found.length % 4
      if c != '=' || last < 2 then values found pads cs
      else if 4 ≤ last + (pads + 1) then (found.reverse, true)
      else values found (pads + 1) cs

/-- The bytes of some values, of which each has six bits. -/
def bytes : List Nat → List UInt8
  | a :: b :: c :: d :: rest =>
    (a * 4 + b / 16).toUInt8 :: (b % 16 * 16 + c / 4).toUInt8 :: (c % 4 * 64 + d).toUInt8 ::
      bytes rest
  | [a, b, c] => [(a * 4 + b / 16).toUInt8, (b % 16 * 16 + c / 4).toUInt8]
  | [a, b] => [(a * 4 + b / 16).toUInt8]
  | _ => []

/-- The bytes of a text, or what is wrong with it. -/
def decode (cs : List Char) : Except String (List UInt8) :=
  match values [] 0 cs with
  | (vs, true) => .ok (bytes vs)
  | (vs, false) =>
    if vs.length % 4 = 1 then
      .error ("Invalid base64-encoded string: number of data characters (" ++
        toString vs.length ++ ") cannot be 1 more than a multiple of 4")
    else .error "Incorrect padding"

def isAscii (n : Nat) : Bool := n < 0x80

/-- A character by its number. -/
def escaped (n : Nat) : String :=
  if n < 0x100 then "\\x" ++ .ofList (Text.hex 2 n)
  else if n < 0x10000 then "\\u" ++ .ofList (Text.hex 4 n)
  else "\\U" ++ .ofList (Text.hex 8 n)

/-- The first run of characters that data cannot have. -/
def foreign? (cs : Text.Codes) : Option String :=
  let start := (cs.takeWhile isAscii).length
  match (cs.dropWhile isAscii).takeWhile fun n => !isAscii n with
  | [] => none
  | [n] => some ("'ascii' codec can't encode character '" ++ escaped n ++ "' in position " ++
      toString start ++ ": ordinal not in range(128)")
  | run => some ("'ascii' codec can't encode characters in position " ++ toString start ++ "-" ++
      toString (start + run.length - 1) ++ ": ordinal not in range(128)")

end RustMetrics.Yaml.Base64
