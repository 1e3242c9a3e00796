import RustMetrics.Settings.Moment
import RustMetrics.Settings.Number
import RustMetrics.Text.Codes
import RustMetrics.Text.Digit

/-! Values without parts. They can be keys of a mapping and members of a set. -/

namespace RustMetrics

inductive Scalar where
  | null
  | bool (b : Bool)
  | int (n : Int)
  | float (literal : String)
  | text (s : String)
  /-- A text with halves of pairs in it. -/
  | halved (codes : Text.Codes)
  | date (d : Date)
  | moment (m : Moment)
  | bytes (data : List UInt8)
  deriving DecidableEq, Repr

instance : Coe String Scalar := ⟨.text⟩

namespace Scalar

/-- The text of some numbers of characters. -/
def ofCodes (cs : Text.Codes) : Scalar :=
  match cs.text? with
  | some s => .text s
  | none => .halved cs

/-- The name that messages use for the sort of a value. -/
def sort : Scalar → String
  | null => "NoneType"
  | bool _ => "bool"
  | int _ => "int"
  | float _ => "float"
  | text _ => "str"
  | halved _ => "str"
  | date _ => "datetime.date"
  | moment _ => "datetime.datetime"
  | bytes _ => "bytes"

/-- A value as messages show it. -/
def shown : Scalar → String
  | null => "None"
  | bool true => "True"
  | bool false => "False"
  | int n => toString n
  | float literal => literal
  | text s => Text.quoted s
  | halved cs => cs.quoted
  | date d => d.shown
  | moment m => m.shown
  | bytes data => Text.quotedBytes data

/-- Whether a value can be shown. A number can be too long for that. -/
def isWritable : Scalar → Bool
  | int n => Text.isWritable n
  | _ => true

/-- Empty and zero values, which count as not given. -/
def isEmpty : Scalar → Bool
  | null => true
  | bool b => !b
  | int n => n == 0
  | float literal => Number.isZero literal
  | text s => s.isEmpty
  | halved cs => cs.isEmpty
  | date _ => false
  | moment _ => false
  | bytes data => data.isEmpty

/-- The integer that a value is equal to, if it is one: truth values are 0 and 1. -/
def number? : Scalar → Option Int
  | bool b => some (if b then 1 else 0)
  | int n => some n
  | float literal => Number.integer? literal
  | _ => none

/-- Whether two values are one member of a set. Numbers are compared by value,
whatever their sort; the number that is none is never equal to anything. -/
def isSame : Scalar → Scalar → Bool
  | float a, float b => a != "nan" && (a == b || (Number.isZero a && Number.isZero b))
  | moment a, moment b => a.isSame b
  | v, w =>
    match v.number?, w.number? with
    | some m, some n => m == n
    | none, none => v == w
    | _, _ => false

end Scalar

end RustMetrics
