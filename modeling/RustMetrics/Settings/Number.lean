/-! Floating-point numbers of a settings file. Their loader writes each number with
the fewest digits that read back as the same 64-bit number, so the text names
the number: two texts are the same number only if they are equal, the two zeros
apart. Only a comparison with an integer needs the value itself. -/

namespace RustMetrics.Number

def isZero (literal : String) : Bool := literal == "0.0" || literal == "-0.0"

/-- The nearest number with at most 53 binary digits before its zeros; of two
equally near ones the even. -/
def nearest53 (n : Nat) : Nat :=
  if n < Nat.pow 2 53 then n
  else
    let cut := n.log2 - 52
    let kept := n / Nat.pow 2 cut
    let rest := n % Nat.pow 2 cut
    let half := Nat.pow 2 (cut - 1)
    let up := half < rest || (rest == half && kept % 2 == 1)
    (if up then kept + 1 else kept) * Nat.pow 2 cut

def digits? (s : List Char) : Option Nat :=
  if !s.isEmpty && s.all Char.isDigit then
    some (s.foldl (fun n c => n * 10 + (c.toNat - 48)) 0)
  else none

/-- `m` times ten to the `places`, if that is an integer. -/
def scaled? (m : Nat) (places : Int) : Option Nat :=
  if 0 ≤ places then some (m * Nat.pow 10 places.toNat)
  else
    let unit := Nat.pow 10 (-places).toNat
    if m % unit == 0 then some (m / unit) else none

def exponent? (s : List Char) : Option Int :=
  match s with
  | [] => some 0
  | 'e' :: '+' :: rest => (digits? rest).map fun n => (n : Int)
  | 'e' :: '-' :: rest => (digits? rest).map fun n => -(n : Int)
  | _ => none

/-- The value of a literal without its sign, if it is an integer. -/
def magnitude? (s : List Char) : Option Nat := do
  let whole := s.takeWhile Char.isDigit
  let rest := s.dropWhile Char.isDigit
  let (fraction, rest) := match rest with
    | '.' :: rest => (rest.takeWhile Char.isDigit, rest.dropWhile Char.isDigit)
    | rest => ([], rest)
  let m ← digits? (whole ++ fraction)
  let e ← exponent? rest
  let n ← scaled? m (e - fraction.length)
  return nearest53 n

/-- The integer that a literal is equal to, if there is one. -/
def integer? (literal : String) : Option Int :=
  match literal.toList with
  | '-' :: rest => (magnitude? rest).map fun n => -(n : Int)
  | rest => (magnitude? rest).map fun n => (n : Int)

end RustMetrics.Number
