/-! BLAKE2b without a key, cut to eight bytes. The state is eight 64-bit words; a
block of 128 bytes is compressed into it in twelve rounds. Sixteen working
words are kept in one structure, so that a round is a plain expression on
them. -/

namespace RustMetrics.Blake2b

structure Words where
  a0 : UInt64
  a1 : UInt64
  a2 : UInt64
  a3 : UInt64
  b0 : UInt64
  b1 : UInt64
  b2 : UInt64
  b3 : UInt64
  c0 : UInt64
  c1 : UInt64
  c2 : UInt64
  c3 : UInt64
  d0 : UInt64
  d1 : UInt64
  d2 : UInt64
  d3 : UInt64

structure Chain where
  h0 : UInt64
  h1 : UInt64
  h2 : UInt64
  h3 : UInt64
  h4 : UInt64
  h5 : UInt64
  h6 : UInt64
  h7 : UInt64

structure Quad where
  a : UInt64
  b : UInt64
  c : UInt64
  d : UInt64

def iv : Chain :=
  ⟨0x6a09e667f3bcc908, 0xbb67ae8584caa73b, 0x3c6ef372fe94f82b, 0xa54ff53a5f1d36f1,
   0x510e527fade682d1, 0x9b05688c2b3e6c1f, 0x1f83d9abfb41bd6b, 0x5be0cd19137e2179⟩

/-- The order in which each round takes the sixteen words of a block. The last
two rounds use the first two orders again. -/
def schedule : List (List Nat) := [
  [0, 1, 2, 3, 4, 5, 6, 7, 8, 9, 10, 11, 12, 13, 14, 15],
  [14, 10, 4, 8, 9, 15, 13, 6, 1, 12, 0, 2, 11, 7, 5, 3],
  [11, 8, 12, 0, 5, 2, 15, 13, 10, 14, 3, 6, 7, 1, 9, 4],
  [7, 9, 3, 1, 13, 12, 11, 14, 2, 6, 5, 10, 4, 0, 15, 8],
  [9, 0, 5, 7, 2, 4, 10, 15, 14, 1, 11, 12, 6, 8, 3, 13],
  [2, 12, 6, 10, 0, 11, 8, 3, 4, 13, 7, 5, 15, 14, 1, 9],
  [12, 5, 1, 15, 14, 13, 4, 10, 0, 7, 6, 3, 9, 2, 8, 11],
  [13, 11, 7, 14, 12, 1, 3, 9, 5, 0, 15, 4, 8, 6, 2, 10],
  [6, 15, 14, 9, 11, 3, 0, 8, 12, 2, 13, 7, 1, 4, 10, 5],
  [10, 2, 8, 4, 7, 6, 1, 5, 15, 11, 9, 14, 3, 12, 13, 0],
  [0, 1, 2, 3, 4, 5, 6, 7, 8, 9, 10, 11, 12, 13, 14, 15],
  [14, 10, 4, 8, 9, 15, 13, 6, 1, 12, 0, 2, 11, 7, 5, 3]]

@[inline] def rotateRight (x : UInt64) (n : UInt64) : UInt64 :=
  (x >>> n) ||| (x <<< (64 - n))

@[inline] def mix (a b c d x y : UInt64) : Quad :=
  let a := a + b + x
  let d := rotateRight (d ^^^ a) 32
  let c := c + d
  let b := rotateRight (b ^^^ c) 24
  let a := a + b + y
  let d := rotateRight (d ^^^ a) 16
  let c := c + d
  let b := rotateRight (b ^^^ c) 63
  ⟨a, b, c, d⟩

/-- One round: the four columns of the working words, then the four diagonals. -/
def round (m : List UInt64) (w : Words) : Words :=
  match m with
  | [x0, x1, x2, x3, x4, x5, x6, x7, x8, x9, x10, x11, x12, x13, x14, x15] =>
    let p := mix w.a0 w.b0 w.c0 w.d0 x0 x1
    let q := mix w.a1 w.b1 w.c1 w.d1 x2 x3
    let r := mix w.a2 w.b2 w.c2 w.d2 x4 x5
    let s := mix w.a3 w.b3 w.c3 w.d3 x6 x7
    let t := mix p.a q.b r.c s.d x8 x9
    let u := mix q.a r.b s.c p.d x10 x11
    let v := mix r.a s.b p.c q.d x12 x13
    let z := mix s.a p.b q.c r.d x14 x15
    ⟨t.a, u.a, v.a, z.a, z.b, t.b, u.b, v.b, v.c, z.c, t.c, u.c, u.d, v.d, z.d, t.d⟩
  | _ => w

/-- The words of a block in the order of a round. -/
def ordered (m : Array UInt64) (order : List Nat) : List UInt64 :=
  order.map fun i => m.getD i 0

def compress (h : Chain) (m : Array UInt64) (count : UInt64) (last : Bool) : Chain :=
  let start : Words :=
    ⟨h.h0, h.h1, h.h2, h.h3, h.h4, h.h5, h.h6, h.h7,
     iv.h0, iv.h1, iv.h2, iv.h3, iv.h4 ^^^ count, iv.h5,
     if last then ~~~iv.h6 else iv.h6, iv.h7⟩
  let w := schedule.foldl (fun w order => round (ordered m order) w) start
  ⟨h.h0 ^^^ w.a0 ^^^ w.c0, h.h1 ^^^ w.a1 ^^^ w.c1, h.h2 ^^^ w.a2 ^^^ w.c2, h.h3 ^^^ w.a3 ^^^ w.c3,
   h.h4 ^^^ w.b0 ^^^ w.d0, h.h5 ^^^ w.b1 ^^^ w.d1, h.h6 ^^^ w.b2 ^^^ w.d2, h.h7 ^^^ w.b3 ^^^ w.d3⟩

/-- The number whose base 256 digits are the bytes, lowest first. -/
def littleEndian (bytes : List UInt8) : UInt64 :=
  bytes.foldr (fun b n => (n <<< 8) ||| b.toUInt64) 0

/-- A block of at most 128 bytes as sixteen words, zeros after its end. -/
def blockWords (block : List UInt8) : Array UInt64 :=
  ((List.range 16).map fun i => littleEndian ((block.drop (8 * i)).take 8)).toArray

/-- Compresses all blocks; the last one, which may be short, is marked. `done`
counts the bytes before `bytes`. -/
def absorb (h : Chain) (done : Nat) (bytes : List UInt8) : Chain :=
  if bytes.length ≤ 128 then
    compress h (blockWords bytes) (UInt64.ofNat (done + bytes.length)) true
  else
    absorb (compress h (blockWords (bytes.take 128)) (UInt64.ofNat (done + 128)) false)
      (done + 128) (bytes.drop 128)
termination_by bytes.length
decreasing_by simp only [List.length_drop]; omega

/-- The start state for an eight-byte digest without a key. -/
def initial : Chain := { iv with h0 := iv.h0 ^^^ 0x01010008 }

def bytesOf (n : UInt64) : List UInt8 :=
  (List.range 8).map fun i => (n >>> (8 * UInt64.ofNat i)).toUInt8

/-- The first eight bytes of the hash. -/
def digest (bytes : List UInt8) : List UInt8 := bytesOf (absorb initial 0 bytes).h0

end RustMetrics.Blake2b
