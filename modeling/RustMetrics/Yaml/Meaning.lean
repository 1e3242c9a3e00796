import RustMetrics.Settings.Moment
import RustMetrics.Yaml.Mark

/-! What plain scalars mean: nothing, truth values, numbers, dates, and otherwise texts. -/

namespace RustMetrics.Yaml

/-- The type of a kind of content. -/
def standard (name : String) : String := "tag:yaml.org,2002:" ++ name

namespace Meaning

def isDecimal (c : Char) : Bool := '0' ≤ c && c ≤ '9'

def isSpaced (c : Char) : Bool := isDecimal c || c == '_'

/-- A text without the sign in front. -/
def unsigned : List Char → List Char
  | '-' :: cs => cs
  | '+' :: cs => cs
  | cs => cs

def isTruth (s : String) : Bool :=
  ["yes", "Yes", "YES", "no", "No", "NO", "true", "True", "TRUE", "false", "False", "FALSE",
    "on", "On", "ON", "off", "Off", "OFF"].contains s

def isNothing (s : String) : Bool := ["~", "null", "Null", "NULL", ""].contains s

/-- The exponent of a number: a letter, a sign and digits, or nothing at all. -/
def isExponent : List Char → Bool
  | [] => true
  | e :: sign :: digits =>
    (e == 'e' || e == 'E') && (sign == '-' || sign == '+') && !digits.isEmpty &&
      digits.all isDecimal
  | _ => false

/-- The digits that follow a colon in a number to the base sixty. -/
def isSixtieth : List Char → Bool
  | [a] => isDecimal a
  | [a, b] => '0' ≤ a && a ≤ '5' && isDecimal b
  | _ => false

/-- Digits, the first of which is one of some sort. -/
def startsAndGoesOn (starts goesOn : Char → Bool) : List Char → Bool
  | [] => false
  | c :: cs => starts c && cs.all goesOn

/-- A number to the base sixty: a first part and at least one more. -/
def isSexagesimal (starts : Char → Bool) (cs : List Char) : Bool :=
  match cs.splitOnP (· == ':') with
  | first :: second :: more =>
    startsAndGoesOn starts isSpaced first && (second :: more).all isSixtieth
  | _ => false

def isFloat (cs : List Char) : Bool :=
  let u := unsigned cs
  let whole := u.takeWhile isSpaced
  let isPointed := match u.dropWhile isSpaced with
    | '.' :: rest =>
      startsAndGoesOn isDecimal isSpaced whole && isExponent (rest.dropWhile isSpaced)
    | _ => false
  let isPointFirst := match cs with
    | '.' :: rest =>
      startsAndGoesOn isDecimal isSpaced (rest.takeWhile isSpaced) &&
        isExponent (rest.dropWhile isSpaced)
    | _ => false
  let isSixty :=
    let places := (u.reverse.takeWhile (· != '.')).reverse
    u.contains '.' && places.all isSpaced &&
      isSexagesimal isDecimal (u.take (u.length - places.length - 1))
  isPointed || isPointFirst || isSixty ||
    [".inf", ".Inf", ".INF"].contains (String.ofList u) ||
    [".nan", ".NaN", ".NAN"].contains (String.ofList cs)

def isInteger (cs : List Char) : Bool :=
  let isOctal := fun c : Char => ('0' ≤ c && c ≤ '7') || c == '_'
  let isHex := fun c : Char =>
    isSpaced c || ('a' ≤ c && c ≤ 'f') || ('A' ≤ c && c ≤ 'F')
  let isPositive := fun c : Char => '1' ≤ c && c ≤ '9'
  match unsigned cs with
  | ['0'] => true
  | '0' :: 'b' :: rest => !rest.isEmpty && rest.all fun c => c == '0' || c == '1' || c == '_'
  | '0' :: 'x' :: rest => !rest.isEmpty && rest.all isHex
  | '0' :: rest => rest.all isOctal
  | rest => startsAndGoesOn isPositive isSpaced rest || isSexagesimal isPositive rest

/-- The number that some digits write, not fewer than `least`. -/
def digitsThen (least most : Nat) (cs : List Char) : Option (Nat × List Char) :=
  let digits := (cs.takeWhile isDecimal).take most
  if digits.length < least then none
  else some (digits.foldl (fun n d => n * 10 + (d.toNat - '0'.toNat)) 0, cs.drop digits.length)

/-- A date as it is written, alone or with a time of day. `isFull` says that month and day
have two digits each. -/
structure Written where
  date : Date
  isFull : Bool
  moment : Option Moment
  deriving DecidableEq, Repr

def isBlank (c : Char) : Bool := c == ' ' || c == '\t'

/-- A zone: how many minutes it is ahead. Nothing at all is no zone. -/
def zone? : List Char → Option (Option Int)
  | [] => some none
  | ['Z'] => some (some 0)
  | sign :: rest => do
    if sign != '-' && sign != '+' then none
    let (hours, rest) ← digitsThen 1 2 rest
    let minutes ← match rest with
      | [] => some 0
      | ':' :: rest => do
        let (minutes, rest) ← digitsThen 2 2 rest
        if rest.isEmpty then some minutes else none
      | _ => none
    let size : Int := hours * 60 + minutes
    return some (if sign == '-' then -size else size)

/-- The millionths that the first six digits of a fraction stand for. -/
def micros (digits : List Char) : Nat :=
  ((digits ++ List.replicate 6 '0').take 6).foldl (fun n d => n * 10 + (d.toNat - '0'.toNat)) 0

/-- The fraction and the zone after the seconds. Blanks stand only before a zone. -/
def tail? (cs : List Char) : Option (Nat × Option Int) := do
  let (fraction, rest) := match cs with
    | '.' :: rest => (rest.takeWhile isDecimal, rest.dropWhile isDecimal)
    | rest => ([], rest)
  let zone := rest.dropWhile isBlank
  if zone.isEmpty && !rest.isEmpty then none
  else return (micros fraction, ← zone? zone)

/-- A time of some day. -/
def time? (date : Date) (cs : List Char) : Option Moment := do
  let (hour, rest) ← digitsThen 1 2 cs
  let ':' :: rest := rest | none
  let (minute, rest) ← digitsThen 2 2 rest
  let ':' :: rest := rest | none
  let (second, rest) ← digitsThen 2 2 rest
  let (micro, zone) ← tail? rest
  return ⟨date, hour, minute, second, micro, zone⟩

/-- A date, alone or with a time behind it. -/
def written? (cs : List Char) : Option Written := do
  let (year, rest) ← digitsThen 4 4 cs
  let '-' :: rest := rest | none
  let (month, afterMonth) ← digitsThen 1 2 rest
  let '-' :: rest' := afterMonth | none
  let (day, rest'') ← digitsThen 1 2 rest'
  let isFull := rest.length - afterMonth.length = 2 && rest'.length - rest''.length = 2
  let date : Date := ⟨year, month, day⟩
  match rest'' with
  | [] => return ⟨date, isFull, none⟩
  | c :: more =>
    if c == 'T' || c == 't' then return ⟨date, isFull, ← time? date more⟩
    else if isBlank c then return ⟨date, isFull, ← time? date (more.dropWhile isBlank)⟩
    else none

/-- A date alone is one only in full. -/
def isMoment (cs : List Char) : Bool :=
  (written? cs).any fun w => w.isFull || w.moment.isSome

/-- A text without the line break at its end. One that is nothing else is kept. -/
def withoutBreak (cs : List Char) : List Char :=
  if 1 < cs.length && cs.getLast? == some '\n' then cs.dropLast else cs

/-- The type of a plain scalar. -/
def typeOf (text : List Char) : String :=
  let cs := withoutBreak text
  let s := String.ofList cs
  standard (if isTruth s then "bool"
    else if isFloat cs then "float"
    else if isInteger cs then "int"
    else if s == "<<" then "merge"
    else if isNothing s then "null"
    else if isMoment cs then "timestamp"
    else if s == "=" then "value"
    else "str")

end Meaning

end RustMetrics.Yaml
