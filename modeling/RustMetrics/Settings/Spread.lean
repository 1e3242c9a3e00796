import RustMetrics.Settings.Scalar

/-! The order in which a set of integers is gone through. A set is a table with more than
twice as many places as members. Every integer has a first place, its remainder, and
takes the next free one of a fixed row of places if that is taken. -/

namespace RustMetrics.Spread

/-- The integers are spread over this many numbers first. -/
def modulus : Nat := Nat.pow 2 61 - 1

/-- The number that decides on the places of an integer. -/
def hash (n : Int) : Nat :=
  let size := n.natAbs % modulus
  if n < 0 then Nat.pow 2 64 - (if size = 1 then 2 else size) else size

/-- The size of the table for some number of members. -/
def tableSize (members : Nat) : Nat :=
  if members * 5 < 21 then 8
  else ((List.range 64).map fun k => Nat.pow 2 (k + 3)).find? (2 * members < ·) |>.getD 8

/-- How many places after a place are tried before jumping elsewhere. -/
def run (size place : Nat) : Nat := if place + 9 < size then 9 else 0

/-- The first free place of a row that begins at a place. -/
def freePlace (table : List (Option Int)) (size : Nat) : Nat → Nat → Nat → Option Nat
  | 0, _, _ => none
  | n + 1, place, shift =>
    let row := (List.range (run size place + 1)).map (place + ·)
    match row.find? fun p => (table.getD p none).isNone with
    | some p => some p
    | none =>
      let shift := shift / 32
      freePlace table size n ((place * 5 + 1 + shift) % size) shift

def insert (size : Nat) (table : List (Option Int)) (n : Int) : List (Option Int) :=
  match freePlace table size (size + 16) (hash n % size) (hash n) with
  | some p => table.set p (some n)
  | none => table

/-- Different integers in the order of their places. -/
def order (ns : List Int) : List Int :=
  let size := tableSize ns.length
  (ns.foldl (insert size) (List.replicate size none)).filterMap id

/-- The members of a set in order. Only integers have places that are known; others stay
as they came. -/
def members (ss : List Scalar) : List Scalar :=
  match ss.mapM Scalar.number? with
  | none => ss
  | some ns => (order ns).filterMap fun n => ss.find? fun s => s.number? == some n

end RustMetrics.Spread
