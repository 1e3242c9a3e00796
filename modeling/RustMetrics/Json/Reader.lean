import RustMetrics.Json.Basic

/-! Reading JSON. Blanks may stand between any two parts; a number with a fraction or
an exponent is refused. Reading consumes at least one character for each level
and each item, so the length of the text bounds its depth. -/

namespace RustMetrics.Json

def isSpace (c : Char) : Bool := c == ' ' || c == '\n' || c == '\r' || c == '\t'

def skip (cs : List Char) : List Char := cs.dropWhile isSpace

def hexValue? (c : Char) : Option Nat :=
  if '0' ≤ c && c ≤ '9' then some (c.toNat - 48)
  else if 'a' ≤ c && c ≤ 'f' then some (c.toNat - 87)
  else if 'A' ≤ c && c ≤ 'F' then some (c.toNat - 55)
  else none

/-- Four hexadecimal digits. -/
def unit? : List Char → Option (Nat × List Char)
  | a :: b :: c :: d :: rest => do
    let a ← hexValue? a
    let b ← hexValue? b
    let c ← hexValue? c
    let d ← hexValue? d
    return (((a * 16 + b) * 16 + c) * 16 + d, rest)
  | _ => none

def shortEscape? : Char → Option Char
  | '"' => some '"'
  | '\\' => some '\\'
  | '/' => some '/'
  | 'n' => some '\n'
  | 'r' => some '\r'
  | 't' => some '\t'
  | 'f' => some (Char.ofNat 0x0C)
  | 'b' => some (Char.ofNat 0x08)
  | _ => none

/-- The character after `\u`: one unit, or a high and a low one that belong
together. A unit that is half a pair is refused. -/
def escape? (cs : List Char) : Option (Char × List Char) := do
  let (u, rest) ← unit? cs
  if u < 0xD800 || 0xE000 ≤ u then return (Char.ofNat u, rest)
  else if 0xDC00 ≤ u then none
  else match rest with
    | '\\' :: 'u' :: rest =>
      let (v, rest) ← unit? rest
      if 0xDC00 ≤ v && v < 0xE000 then
        return (Char.ofNat (0x10000 + (u - 0xD800) * 0x400 + (v - 0xDC00)), rest)
      else none
    | _ => none

/-- The rest of a string after its opening quote. -/
def chars? : Nat → List Char → Option (List Char × List Char)
  | 0, _ => none
  | fuel + 1, cs =>
    match cs with
    | [] => none
    | '"' :: rest => some ([], rest)
    | '\\' :: 'u' :: rest => do
      let (c, rest) ← escape? rest
      let (s, rest) ← chars? fuel rest
      return (c :: s, rest)
    | '\\' :: e :: rest => do
      let c ← shortEscape? e
      let (s, rest) ← chars? fuel rest
      return (c :: s, rest)
    | c :: rest =>
      if c.toNat < 0x20 || c == '\\' then none
      else do
        let (s, rest) ← chars? fuel rest
        return (c :: s, rest)

def string? (cs : List Char) : Option (String × List Char) :=
  match cs with
  | '"' :: rest => (chars? cs.length rest).map fun r => (String.ofList r.1, r.2)
  | _ => none

/-- Digits without a leading zero, and no fraction or exponent after them. -/
def natural? (cs : List Char) : Option (Nat × List Char) :=
  let ds := cs.takeWhile Char.isDigit
  let rest := cs.dropWhile Char.isDigit
  match ds, rest with
  | [], _ => none
  | '0' :: _ :: _, _ => none
  | _, '.' :: _ => none
  | _, 'e' :: _ => none
  | _, 'E' :: _ => none
  | ds, rest => some (ds.foldl (fun n d => n * 10 + (d.toNat - 48)) 0, rest)

def integer? : List Char → Option (Int × List Char)
  | '-' :: rest => (natural? rest).map fun r => (-(r.1 : Int), r.2)
  | rest => (natural? rest).map fun r => ((r.1 : Int), r.2)

mutual

/-- A value at the start of a text, and what follows it. -/
def value? : Nat → List Char → Option (Json × List Char)
  | 0, _ => none
  | fuel + 1, cs =>
    match skip cs with
    | 'n' :: 'u' :: 'l' :: 'l' :: rest => some (null, rest)
    | 't' :: 'r' :: 'u' :: 'e' :: rest => some (bool true, rest)
    | 'f' :: 'a' :: 'l' :: 's' :: 'e' :: rest => some (bool false, rest)
    | '"' :: rest => (string? ('"' :: rest)).map fun r => (str r.1, r.2)
    | '[' :: rest =>
      match skip rest with
      | ']' :: rest => some (arr [], rest)
      | rest => (items? fuel rest).map fun r => (arr r.1, r.2)
    | '\x7b' :: rest =>
      match skip rest with
      | '\x7d' :: rest => some (obj [], rest)
      | rest => (fields? fuel rest).map fun r => (obj r.1, r.2)
    | rest => (integer? rest).map fun r => (int r.1, r.2)

/-- One or more items and the bracket after them. -/
def items? : Nat → List Char → Option (List Json × List Char)
  | 0, _ => none
  | fuel + 1, cs => do
    let (v, rest) ← value? fuel cs
    match skip rest with
    | ',' :: rest =>
      let (vs, rest) ← items? fuel rest
      return (v :: vs, rest)
    | ']' :: rest => return ([v], rest)
    | _ => none

/-- One or more fields and the brace after them. -/
def fields? : Nat → List Char → Option (List (String × Json) × List Char)
  | 0, _ => none
  | fuel + 1, cs => do
    let (k, rest) ← string? (skip cs)
    match skip rest with
    | ':' :: rest =>
      let (v, rest) ← value? fuel rest
      match skip rest with
      | ',' :: rest =>
        let (fs, rest) ← fields? fuel rest
        return ((k, v) :: fs, rest)
      | '\x7d' :: rest => return ([(k, v)], rest)
      | _ => none
    | _ => none

end

/-- The document that a text is, if it is one. -/
def parse? (s : String) : Option Json :=
  match value? (s.toList.length + 1) s.toList with
  | some (j, rest) => if (skip rest).isEmpty then some j else none
  | none => none

end RustMetrics.Json
