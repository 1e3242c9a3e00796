import RustMetrics.Settings.Scalar

/-! Settings come from files in which anything can stand anywhere, so they are kept
as the loosely typed values that a loader gives, and looked at piece by piece.
Mappings keep the order in which their keys came. -/

namespace RustMetrics

inductive Value where
  | scalar (s : Scalar)
  | list (items : List Value)
  | tuple (items : List Value)
  | set (members : List Scalar)
  | map (entries : List (Scalar × Value))
  /-- A list or a mapping that is being gone through already, inside of itself. -/
  | again (isMap : Bool)

/-- The content of a mapping, keys in the order of their first entry. -/
abbrev Entries := List (Scalar × Value)

namespace Value

@[match_pattern]
abbrev null : Value := .scalar .null

@[match_pattern]
abbrev bool (b : Bool) : Value := .scalar (.bool b)

@[match_pattern]
abbrev int (n : Int) : Value := .scalar (.int n)

@[match_pattern]
abbrev float (literal : String) : Value := .scalar (.float literal)

@[match_pattern]
abbrev text (s : String) : Value := .scalar (.text s)

/-- The name that messages use for the sort of a value. -/
def sort : Value → String
  | scalar s => s.sort
  | list _ => "list"
  | tuple _ => "tuple"
  | set _ => "set"
  | map _ => "dict"
  | again isMap => if isMap then "dict" else "list"

def shownSet (members : List Scalar) : String :=
  if members.isEmpty then "set()"
  else "\x7b" ++ ", ".intercalate (members.map Scalar.shown) ++ "\x7d"

mutual

/-- A value as messages show it. -/
def shown : Value → String
  | scalar s => s.shown
  | list items => "[" ++ shownItems items ++ "]"
  | tuple [v] => "(" ++ shown v ++ ",)"
  | tuple items => "(" ++ shownItems items ++ ")"
  | set members => shownSet members
  | map entries => "\x7b" ++ shownEntries entries ++ "\x7d"
  | again isMap => if isMap then "\x7b...\x7d" else "[...]"

def shownItems : List Value → String
  | [] => ""
  | [v] => shown v
  | v :: vs => shown v ++ ", " ++ shownItems vs

def shownEntries : List (Scalar × Value) → String
  | [] => ""
  | [(k, v)] => k.shown ++ ": " ++ shown v
  | (k, v) :: es => k.shown ++ ": " ++ shown v ++ ", " ++ shownEntries es

end

mutual

/-- Whether a value can be shown. -/
def isWritable : Value → Bool
  | scalar s => s.isWritable
  | list items => areWritable items
  | tuple items => areWritable items
  | set members => members.all Scalar.isWritable
  | map entries => haveWritable entries
  | again _ => true

def areWritable : List Value → Bool
  | [] => true
  | v :: vs => isWritable v && areWritable vs

def haveWritable : List (Scalar × Value) → Bool
  | [] => true
  | (k, v) :: es => k.isWritable && isWritable v && haveWritable es

end

/-- A value as plain text: a text is itself, any other value is shown. -/
def plain : Value → String
  | text s => s
  | v => v.shown

/-- Empty and zero values, which count as not given. -/
def isEmpty : Value → Bool
  | scalar s => s.isEmpty
  | list items => items.isEmpty
  | tuple items => items.isEmpty
  | set members => members.isEmpty
  | map entries => entries.isEmpty
  | again _ => false

mutual

/-- The part of a value that keeps it out of a set. Lists, sets and mappings cannot be
members of one, nor can what holds them. -/
def unhashable? : Value → Option Value
  | scalar _ => none
  | tuple items => firstUnhashable? items
  | v => some v

def firstUnhashable? : List Value → Option Value
  | [] => none
  | v :: vs => unhashable? v <|> firstUnhashable? vs

end

mutual

/-- Whether two values are one member of a set. -/
def isSame : Value → Value → Bool
  | scalar s, scalar t => s.isSame t
  | tuple vs, tuple ws => areSame vs ws
  | _, _ => false

def areSame : List Value → List Value → Bool
  | [], [] => true
  | v :: vs, w :: ws => isSame v w && areSame vs ws
  | _, _ => false

end

/-- The members that a value has when it is gone through one by one: the items of
a list, the characters of a text, the keys of a mapping, the numbers of bytes. -/
def members? : Value → Option (List Value)
  | list items => some items
  | tuple items => some items
  | set members => some (members.map scalar)
  | text s => some (s.toList.map fun c => text (String.singleton c))
  | scalar (.halved cs) => some (cs.map fun n => scalar (.ofCodes [n]))
  | scalar (.bytes data) => some (data.map fun b => int b.toNat)
  | map entries => some (entries.map fun e => scalar e.1)
  | _ => none

end Value

namespace Entries

def get? (es : Entries) (key : Scalar) : Option Value := es.lookup key

/-- Replaces the value of a key in its place, or adds the key at the end. -/
def set (key : Scalar) (v : Value) : Entries → Entries
  | [] => [(key, v)]
  | (k, w) :: es => if k = key then (key, v) :: es else (k, w) :: set key v es

/-- Sets the value of a key, which keeps the form in which it came first. -/
def setSame (key : Scalar) (v : Value) : Entries → Entries
  | [] => [(key, v)]
  | (k, w) :: es => if k.isSame key then (k, v) :: es else (k, w) :: setSame key v es

end Entries

mutual

/-- A value in which no mapping has a key twice. What is handed over with a file is not
checked for that; of several entries of a key the last counts, in the place of the first. -/
def Value.tidy : Value → Value
  | .list items => .list (Value.tidyItems items)
  | .tuple items => .tuple (Value.tidyItems items)
  | .map entries => .map (Entries.tidyOnto [] entries)
  | v => v

def Value.tidyItems : List Value → List Value
  | [] => []
  | v :: vs => Value.tidy v :: Value.tidyItems vs

/-- The entries that follow some that are tidy already. -/
def Entries.tidyOnto (done : List (Scalar × Value)) :
    List (Scalar × Value) → List (Scalar × Value)
  | [] => done
  | (k, v) :: es => Entries.tidyOnto (Entries.setSame k (Value.tidy v) done) es

end

mutual

/-- What stands at a key after a value is laid over what stood there: two mappings
are merged, anything else is replaced. -/
def Value.over (base : Option Value) : Value → Value
  | .map changes => match base with
    | some (.map entries) => .map (Entries.merge entries changes)
    | _ => .map changes
  | v => v

/-- A mapping with another one laid over it. Keys keep their places, new keys
follow. -/
def Entries.merge (base : List (Scalar × Value)) :
    List (Scalar × Value) → List (Scalar × Value)
  | [] => base
  | (k, v) :: changes =>
    Entries.merge (Entries.set k (Value.over (Entries.get? base k) v) base) changes

end

end RustMetrics
