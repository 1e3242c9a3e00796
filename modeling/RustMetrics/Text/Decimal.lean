import RustMetrics.Text.Digit

/-! Floating-point numbers in decimal. They are written with the fewest digits that read
back as the same number, positional between 10⁻⁴ and 10¹⁶, and otherwise with an
exponent. -/

namespace RustMetrics.Text.Decimal

/-- A number above zero as a fraction. -/
def fraction (bits : Nat) : Nat × Nat :=
  let exponent := bits / Nat.pow 2 52 % Nat.pow 2 11
  let significand := bits % Nat.pow 2 52 + (if exponent = 0 then 0 else Nat.pow 2 52)
  let shift := max exponent 1
  if 1075 ≤ shift then (significand * Nat.pow 2 (shift - 1075), 1)
  else (significand, Nat.pow 2 (1075 - shift))

/-- The power of ten of the first digit of a fraction. -/
def leading (num den : Nat) : Int :=
  if den ≤ num then ((toString (num / den)).length : Int) - 1
  else -(((List.range 330).find? fun j => den ≤ num * Nat.pow 10 j).getD 0 : Int)

/-- A number of some units, each a power of ten. -/
structure Scaled where
  units : Nat
  power : Int
  deriving DecidableEq, Repr

namespace Scaled

def toFloat (s : Scaled) : Float := Float.ofScientific s.units (s.power < 0) s.power.natAbs

/-- The two neighbours of a fraction that have some number of digits, the nearer one
first. -/
def neighbours (num den digits : Nat) : List Scaled :=
  let power := leading num den - (digits : Int) + 1
  let top := if power < 0 then num * Nat.pow 10 power.natAbs else num
  let bottom := if power < 0 then den else den * Nat.pow 10 power.natAbs
  let below := top / bottom
  let rest := 2 * (top % bottom)
  let isUp := bottom < rest || (rest == bottom && below % 2 == 1)
  if isUp then [⟨below + 1, power⟩, ⟨below, power⟩] else [⟨below, power⟩, ⟨below + 1, power⟩]

/-- The shortest number that reads back as a positive one. Seventeen digits always do. -/
def shortest (x : Float) : Scaled :=
  let (num, den) := fraction x.toBits.toNat
  ((List.range 17).flatMap fun n => neighbours num den (n + 1)).find?
    (fun s => s.toFloat.toBits == x.toBits) |>.getD ⟨0, 0⟩

/-- A number in positional form, or with an exponent of at least two digits. -/
def text (s : Scaled) : String :=
  let all := (toString s.units).toList
  let point := (all.length : Int) + s.power
  let digits := (all.reverse.dropWhile (· == '0')).reverse
  let zeros := fun n : Nat => List.replicate n '0'
  String.ofList <|
    if point ≤ -4 || 16 < point then
      let exponent := toString (point - 1).natAbs
      digits.take 1 ++ (if digits.length ≤ 1 then [] else '.' :: digits.drop 1) ++
        ['e', if point < 1 then '-' else '+'] ++ zeros (2 - exponent.length) ++ exponent.toList
    else if point ≤ 0 then '0' :: '.' :: zeros point.natAbs ++ digits
    else
      let before := digits.take point.toNat
      let behind := digits.drop point.toNat
      before ++ zeros (point.toNat - before.length) ++
        '.' :: (if behind.isEmpty then ['0'] else behind)

end Scaled

/-- The text of a number. -/
def text (x : Float) : String :=
  if x.isNaN then "nan"
  else
    let sign := if Nat.pow 2 63 ≤ x.toBits.toNat then "-" else ""
    let size := x.abs
    if size.isInf then sign ++ "inf"
    else if size == 0 then sign ++ "0.0"
    else sign ++ (Scaled.shortest size).text

/-- Digits alone, at least one. -/
def digits? (cs : List Char) : Option Nat :=
  if cs.isEmpty then none else (cs.mapM digit?).map ofDigits

def exponent? : List Char → Option Int
  | [] => some 0
  | 'e' :: '-' :: digits => (digits? digits).map fun n => -(n : Int)
  | 'e' :: '+' :: digits => (digits? digits).map fun n => (n : Int)
  | 'e' :: digits => (digits? digits).map fun n => (n : Int)
  | _ => none

/-- A number above which every power of ten is out of range. -/
def farthest : Nat := 10000

/-- Reads digits, a point and more digits, and an exponent. -/
def read? (cs : List Char) : Option Float := do
  let whole := cs.takeWhile isDigit
  let (places, rest) := match cs.dropWhile isDigit with
    | '.' :: rest => (rest.takeWhile isDigit, rest.dropWhile isDigit)
    | rest => ([], rest)
  let exponent ← exponent? rest
  let n ← digits? (whole ++ places)
  let power := exponent - (places.length : Int)
  if n = 0 then return 0
  else return Float.ofScientific n (power < 0) (min power.natAbs farthest)

end RustMetrics.Text.Decimal
