/-! Reading bytes as UTF-8. A byte string is cut into pieces: characters, and
runs of one to three bytes that cannot start or continue one. A run ends
before the first byte that could not stand there, so reading goes on at the
earliest place where a character may start. Strict and lossy reading are two
uses of the same cut: strict reading fails at the first refused run, lossy
reading puts U+FFFD in its place. -/

namespace RustMetrics.Utf8

/-- Why a run of bytes is refused. -/
inductive Fault where
  | badStart
  | badContinuation
  | truncated
  deriving DecidableEq, Repr

def Fault.message : Fault → String
  | .badStart => "invalid start byte"
  | .badContinuation => "invalid continuation byte"
  | .truncated => "unexpected end of data"

inductive Piece where
  | char (c : Char)
  | refused (first : UInt8) (rest : List UInt8) (fault : Fault)
  deriving DecidableEq, Repr

/-- Bytes that may follow the first byte of a character. -/
def isContinuation (b : UInt8) : Bool := 0x80 ≤ b && b < 0xC0

/-- The second byte also rules out overlong forms, surrogates and code points
above U+10FFFF, which the first byte alone would let through. -/
def isSecond (first second : UInt8) : Bool :=
  isContinuation second &&
    (first != 0xE0 || 0xA0 ≤ second) && (first != 0xED || second < 0xA0) &&
    (first != 0xF0 || 0x90 ≤ second) && (first != 0xF4 || second < 0x90)

/-- The low six bits, which a continuation byte adds to a code point. -/
def low (b : UInt8) : Nat := b.toNat % 64

def readTwo (a : UInt8) : List UInt8 → Piece × List UInt8
  | [] => (.refused a [] .truncated, [])
  | b :: rest =>
    if isSecond a b then (.char (Char.ofNat (a.toNat % 32 * 64 + low b)), rest)
    else (.refused a [] .badContinuation, b :: rest)

def readThree (a : UInt8) : List UInt8 → Piece × List UInt8
  | [] => (.refused a [] .truncated, [])
  | b :: rest =>
    if isSecond a b then
      match rest with
      | [] => (.refused a [b] .truncated, [])
      | c :: rest =>
        if isContinuation c then
          (.char (Char.ofNat (a.toNat % 16 * 4096 + low b * 64 + low c)), rest)
        else (.refused a [b] .badContinuation, c :: rest)
    else (.refused a [] .badContinuation, b :: rest)

def readFour (a : UInt8) : List UInt8 → Piece × List UInt8
  | [] => (.refused a [] .truncated, [])
  | b :: rest =>
    if isSecond a b then
      match rest with
      | [] => (.refused a [b] .truncated, [])
      | c :: rest =>
        if isContinuation c then
          match rest with
          | [] => (.refused a [b, c] .truncated, [])
          | d :: rest =>
            if isContinuation d then
              (.char (Char.ofNat
                (a.toNat % 8 * 262144 + low b * 4096 + low c * 64 + low d)), rest)
            else (.refused a [b, c] .badContinuation, d :: rest)
        else (.refused a [b] .badContinuation, c :: rest)
    else (.refused a [] .badContinuation, b :: rest)

/-- The first piece of a non-empty byte string, and the bytes after it. -/
def next (a : UInt8) (rest : List UInt8) : Piece × List UInt8 :=
  if a < 0x80 then (.char (Char.ofNat a.toNat), rest)
  else if a < 0xC2 then (.refused a [] .badStart, rest)
  else if a < 0xE0 then readTwo a rest
  else if a < 0xF0 then readThree a rest
  else if a < 0xF5 then readFour a rest
  else (.refused a [] .badStart, rest)

theorem length_readTwo_le (a : UInt8) (rest : List UInt8) :
    (readTwo a rest).2.length ≤ rest.length := by
  unfold readTwo
  repeat' split
  all_goals simp

theorem length_readThree_le (a : UInt8) (rest : List UInt8) :
    (readThree a rest).2.length ≤ rest.length := by
  unfold readThree
  repeat' split
  all_goals simp <;> omega

theorem length_readFour_le (a : UInt8) (rest : List UInt8) :
    (readFour a rest).2.length ≤ rest.length := by
  unfold readFour
  repeat' split
  all_goals simp <;> omega

theorem length_next_le (a : UInt8) (rest : List UInt8) :
    (next a rest).2.length ≤ rest.length := by
  unfold next
  repeat' split
  all_goals first
    | exact Nat.le_refl _
    | exact length_readTwo_le a rest
    | exact length_readThree_le a rest
    | exact length_readFour_le a rest

/-- The pieces of a byte string, from left to right. -/
def pieces : List UInt8 → List Piece
  | [] => []
  | a :: rest => (next a rest).1 :: pieces (next a rest).2
termination_by bytes => bytes.length
decreasing_by
  have := length_next_le a rest
  simp only [List.length_cons]
  omega

def Piece.width : Piece → Nat
  | .char c => c.utf8Size
  | .refused _ rest _ => rest.length + 1

/-- Lossy reading: a refused run counts as one replacement character. -/
def Piece.toChar : Piece → Char
  | .char c => c
  | .refused .. => Char.ofNat 0xFFFD

/-- The first refused run of a byte string and its offset. -/
structure Error where
  offset : Nat
  first : UInt8
  rest : List UInt8
  fault : Fault
  deriving DecidableEq, Repr

def hexDigit (n : Nat) : Char := (Nat.digitChar (n % 16))

def Error.message (e : Error) : String :=
  if e.rest.isEmpty then
    "'utf-8' codec can't decode byte 0x"
      ++ String.ofList [hexDigit (e.first.toNat / 16), hexDigit e.first.toNat]
      ++ " in position " ++ toString e.offset ++ ": " ++ e.fault.message
  else
    "'utf-8' codec can't decode bytes in position " ++ toString e.offset ++ "-"
      ++ toString (e.offset + e.rest.length) ++ ": " ++ e.fault.message

def firstRefused (offset : Nat) : List Piece → Option Error
  | [] => none
  | .char c :: more => firstRefused (offset + c.utf8Size) more
  | .refused a rest fault :: _ => some ⟨offset, a, rest, fault⟩

def lossy (bytes : List UInt8) : String :=
  String.ofList ((pieces bytes).map Piece.toChar)

/-- Strict reading: the lossy text if nothing is refused. -/
def decode (bytes : List UInt8) : Except Error String :=
  match firstRefused 0 (pieces bytes) with
  | some e => .error e
  | none => .ok (lossy bytes)

def encode (s : String) : List UInt8 := s.toUTF8.toList

end RustMetrics.Utf8
