import RustMetrics.Text.Codes
import RustMetrics.Text.Decimal
import RustMetrics.Text.Digit
import RustMetrics.Yaml.Mark

/-! The numbers of a YAML text. Integers may be binary, octal, hexadecimal or in base
sixty, and underscores in any number say nothing. -/

namespace RustMetrics.Yaml.Number

open Text (Codes)

/-- A fault that has no place. -/
def bare (kind problem : String) : Fault := { kind := kind, problem := problem }

/-- Whether a number stands for a character of some sort. -/
def is (p : Char → Bool) (n : Nat) : Bool := p (Char.ofNat n)

/-- Whether a text is a word. -/
def isWord (cs : Codes) (word : String) : Bool := cs == Codes.ofChars word.toList

def startsWith (cs : Codes) (word : String) : Bool := (Codes.ofChars word.toList).isPrefixOf cs

def trimmed (cs : Codes) : Codes :=
  ((cs.dropWhile (is Text.isIntegerBlank)).reverse.dropWhile (is Text.isIntegerBlank)).reverse

/-- The sign of a text, and what follows it. -/
def splitSign (cs : Codes) : Bool × Codes :=
  if startsWith cs "-" then (true, cs.drop 1)
  else if startsWith cs "+" then (false, cs.drop 1)
  else (false, cs)

/-- The digits of a base: ten of any script, and then letters. -/
def digit? (base n : Nat) : Option Nat :=
  let c := Char.ofNat n
  let value := match Text.digit? c with
    | some d => d
    | none =>
      if 'a' ≤ c && c ≤ 'f' then c.toNat - 'a'.toNat + 10
      else if 'A' ≤ c && c ≤ 'F' then c.toNat - 'A'.toNat + 10
      else base
  if value < base then some value else none

/-- The text without the mark of a base, a zero and a letter. -/
def withoutBase (base : Nat) (cs : Codes) : Codes :=
  let mark := if base = 2 then "0b" else if base = 8 then "0o" else if base = 16 then "0x" else ""
  if startsWith ((cs.take 2).map fun n => (Char.ofNat n).toLower.toNat) mark then
    cs.drop mark.length
  else cs

def tooLong (digits : Nat) : Fault :=
  bare "ValueError" ("Exceeds the limit (" ++ toString Text.maxDigits ++
    " digits) for integer string conversion: value has " ++ toString digits ++
    " digits; use sys.set_int_max_str_digits() to increase the limit")

/-- An integer in a base, with a sign and blanks around it. In base ten it can be too
long. -/
def inBase (base : Nat) (cs : Codes) : Except Fault Int :=
  let (isNegative, rest) := splitSign (trimmed cs)
  let digits := withoutBase base rest
  match digits.mapM (digit? base) with
  | none | some [] =>
    .error (bare "ValueError" ("invalid literal for int() with base " ++ toString base ++ ": " ++
      Codes.quoted cs))
  | some ds =>
    if base = 10 && Text.maxDigits < ds.length then .error (tooLong ds.length)
    else
      let n : Nat := ds.foldl (fun n d => n * base + d) 0
      .ok (if isNegative then -(n : Int) else n)

/-- The parts between colons. -/
def parts (cs : Codes) : List Codes := cs.splitOnP (· == ':'.toNat)

def hasParts (cs : Codes) : Bool := cs.contains ':'.toNat

def withoutSpacing (cs : Codes) : Codes := cs.filter (· != '_'.toNat)

def noDigits : Fault := bare "IndexError" "string index out of range"

/-- The value of a text that must be an integer, without its sign. -/
def size (cs : Codes) : Except Fault Int :=
  if cs.isEmpty then .error noDigits
  else if isWord cs "0" then .ok 0
  else if startsWith cs "0b" then inBase 2 (cs.drop 2)
  else if startsWith cs "0x" then inBase 16 (cs.drop 2)
  else if startsWith cs "0" then inBase 8 cs
  else if hasParts cs then do
    let digits ← (parts cs).mapM (inBase 10)
    return digits.foldl (fun n d => n * 60 + d) 0
  else inBase 10 cs

def integer (text : Codes) : Except Fault Int := do
  let cs := withoutSpacing text
  if cs.isEmpty then throw noDigits
  let (isNegative, rest) := splitSign cs
  let n ← size rest
  return if isNegative then -n else n

/-- A floating-point number with a sign and blanks around it. -/
def real (cs : Codes) : Except Fault Float :=
  let (isNegative, rest) := splitSign (trimmed cs)
  let found : Option Float :=
    if isWord rest "inf" || isWord rest "infinity" then some (1 / 0)
    else if isWord rest "nan" then some (0 / 0)
    else Text.Decimal.read? (Codes.chars rest)
  match found with
  | some x => .ok (if isNegative then -x else x)
  | none => .error (bare "ValueError" ("could not convert string to float: " ++ Codes.quoted cs))

/-- Parts in base sixty, the last one first. -/
def sumOfParts : List Float → Nat → Float → Float
  | [], _, sum => sum
  | x :: xs, base, sum => sumOfParts xs (base * 60) (sum + x * Float.ofNat base)

def float (text : Codes) : Except Fault Float := do
  let cs := Codes.lower (withoutSpacing text)
  if cs.isEmpty then throw noDigits
  let (isNegative, rest) := splitSign cs
  let x ← if isWord rest ".inf" then .ok (1 / 0)
    else if isWord rest ".nan" then .ok (0 / 0)
    else if hasParts rest then do
      let xs ← (parts rest).mapM real
      pure (sumOfParts xs.reverse 1 0)
    else real rest
  return if isNegative then -x else x

end RustMetrics.Yaml.Number
