import RustMetrics.Text.Codes
import RustMetrics.Yaml.Cursor

/-! Scalars. A plain scalar ends where something else could begin, a quoted one at its
quote, and a block scalar with its indentation. Line breaks inside a scalar are
folded: one becomes a space, and of more the first is dropped. -/

namespace RustMetrics.Yaml

/-- A fault in the characters of a text. -/
def scanFault (doing : Option String) (since : Option Mark) (problem : String) (place : Mark) :
    Fault := ⟨"ScannerError", doing, since, problem, some place⟩

/-- What a scalar comes to: its text, where it ends, and what is left to read. -/
structure Scanned where
  text : Text.Codes
  stop : Mark
  cursor : Cursor

/-- Folds a first line break and those after it. -/
def folded (first : Char) (more : List Char) : List Char :=
  if first != '\n' then first :: more else if more.isEmpty then [' '] else more

namespace Plain

/-- The line breaks and spaces after a first line break; nothing if a line that
separates documents is among them. -/
def breaks : List Char → List Char → Cursor → Option (List Char) × Cursor
  | [], found, c => (some found.reverse, c)
  | _ :: n, found, c =>
    match c.lineBreak? with
    | some (b, c) => if c.atSeparator then (none, c) else breaks n (b :: found) c
    | none => if c.head == ' ' then breaks n found c.next else (some found.reverse, c)

/-- What stands between two words of a plain scalar. -/
structure Between where
  text : List Char
  crossesLine : Bool
  cursor : Cursor

def between (c : Cursor) : Between :=
  let blanks := c.run (· == ' ')
  let c := c.skipWhile (· == ' ')
  match c.lineBreak? with
  | none => ⟨blanks, false, c⟩
  | some (first, c) =>
    if c.atSeparator then ⟨[], true, c⟩
    else match breaks c.bound [] c with
      | (none, c) => ⟨[], true, c⟩
      | (some more, c) => ⟨folded first more, true, c⟩

def isFlowMark (c : Char) : Bool := ",[]\x7b\x7d".toList.contains c

/-- Whether a plain scalar cannot go on with a character, given the one after it. -/
def stopsAt (inFlow : Bool) (c following : Char) : Bool :=
  isGap c || (c == ':' && (isGap following || (inFlow && isFlowMark following))) ||
    (inFlow && (c == '?' || isFlowMark c))

/-- The length of the word that comes next, and that of what is before it. -/
def wordLength (inFlow : Bool) (before : Nat) : List Char → Nat
  | [] => before
  | c :: cs =>
    if stopsAt inFlow c (cs.head?.getD endChar) then before
    else wordLength inFlow (before + 1) cs

/-- A plain scalar so far, its text from the end, and whether a line break came last. -/
structure State where
  scanned : Scanned
  crossesLine : Bool

/-- Reads on from a place where a word may begin; `pending` is what stands before it. -/
def words (inFlow : Bool) (indent : Int) : List Char → List Char → State → State
  | [], _, s => s
  | _ :: n, pending, s =>
    let c := s.scanned.cursor
    let length := wordLength inFlow 0 c.rest
    if c.head == '#' || length = 0 then s
    else
      let stop := (c.skip length)
      let gap := between stop
      let text := (Text.Codes.ofChars (pending ++ c.rest.take length)).reverse ++ s.scanned.text
      let s : State := ⟨⟨text, stop.mark, gap.cursor⟩, gap.crossesLine⟩
      if gap.text.isEmpty || gap.cursor.head == '#' ||
          (!inFlow && (gap.cursor.mark.column : Int) < indent) then s
      else words inFlow indent n gap.text s

/-- Reads a plain scalar. Outside of brackets its later lines must be indented. -/
def scan (inFlow : Bool) (indent : Int) (c : Cursor) : State :=
  let s := words inFlow indent c.bound [] ⟨⟨[], c.mark, c⟩, false⟩
  { s with scanned := { s.scanned with text := s.scanned.text.reverse } }

end Plain

namespace Quoted

/-- The characters that stand for others after a backslash. -/
def escape? (c : Char) : Option Char :=
  [('0', 0x00), ('a', 0x07), ('b', 0x08), ('t', 0x09), ('\t', 0x09), ('n', 0x0A), ('v', 0x0B),
    ('f', 0x0C), ('r', 0x0D), ('e', 0x1B), (' ', 0x20), ('"', 0x22), ('\\', 0x5C), ('/', 0x2F),
    ('N', 0x85), ('_', 0xA0), ('L', 0x2028), ('P', 0x2029)].lookup c |>.map Char.ofNat

/-- The number of hexadecimal digits after a letter. -/
def escapeLength? : Char → Option Nat
  | 'x' => some 2
  | 'u' => some 4
  | 'U' => some 8
  | _ => none

/-- Checks the number of a character. Halves of pairs have numbers too. -/
def checkCode (code : Nat) : Except Fault Nat :=
  if code < 0x110000 then .ok code
  else if code < Nat.pow 2 31 then
    .error ⟨"ValueError", none, none, "chr() arg not in range(0x110000)", none⟩
  else .error ⟨"OverflowError", none, none, "Python int too large to convert to C int", none⟩

/-- Line breaks and blanks inside a quoted scalar; only the breaks count. -/
def breaks (start : Mark) : List Char → List Char → Cursor → Except Fault (List Char × Cursor)
  | [], found, c => .ok (found.reverse, c)
  | _ :: n, found, c =>
    if c.atSeparator then
      .error (scanFault "while scanning a quoted scalar" start "found unexpected document separator"
        c.mark)
    else
      let c := c.skipWhile fun x => x == ' ' || x == '\t'
      match c.lineBreak? with
      | some (b, c) => breaks start n (b :: found) c
      | none => .ok (found.reverse, c)

/-- A backslash and what follows it. -/
def escaped (start : Mark) (c : Cursor) : Except Fault (Text.Codes × Cursor) :=
  let doing := "while scanning a double-quoted scalar"
  let c := c.next
  match escape? c.head, escapeLength? c.head, c.lineBreak? with
  | some x, _, _ => .ok ([x.toNat], c.next)
  | none, some length, _ =>
    let c := c.next
    match (List.range length).find? fun k => !isHexChar (c.peek k) with
    | some k =>
      .error (scanFault doing start ("expected escape sequence of " ++ toString length ++
        " hexadecimal numbers, but found " ++ shownChar (c.peek k)) c.mark)
    | none => do
      let n ← checkCode (hexNumber (c.rest.take length))
      return ([n], c.skip length)
  | none, none, some (_, c) => (breaks start c.bound [] c).map fun x => (.ofChars x.1, x.2)
  | none, none, none =>
    .error (scanFault doing start ("found unknown escape character " ++ shownChar c.head) c.mark)

/-- The characters up to the next blank or the closing quote, put in front of those
found, which stand from the last to the first. -/
def word (double : Bool) (start : Mark) :
    List Char → Text.Codes → Cursor → Except Fault (Text.Codes × Cursor)
  | [], found, c => .ok (found, c)
  | _ :: n, found, c =>
    let x := c.head
    if isGap x then .ok (found, c)
    else if double && x == '\\' then do
      let (cs, c) ← escaped start c
      word double start n (cs.reverse ++ found) c
    else if !double && x == '\'' && c.peek 1 == '\'' then
      word double start n (x.toNat :: found) c.next.next
    else if x == (if double then '"' else '\'') then .ok (found, c)
    else word double start n (x.toNat :: found) c.next

/-- The blanks between two words. -/
def between (start : Mark) (c : Cursor) : Except Fault (List Char × Cursor) :=
  let isBlank := fun x => x == ' ' || x == '\t'
  let blanks := c.run isBlank
  let c := c.skipWhile isBlank
  if c.head == endChar then
    .error (scanFault "while scanning a quoted scalar" start "found unexpected end of stream"
      c.mark)
  else match c.lineBreak? with
    | none => .ok (blanks, c)
    | some (first, c) => do
      let (more, c) ← breaks start c.bound [] c
      return (folded first more, c)

/-- The words up to the closing quote, from the last character to the first. -/
def words (quote : Char) (start : Mark) :
    List Char → Text.Codes → Cursor → Except Fault (Text.Codes × Cursor)
  | [], found, c => .ok (found, c)
  | _ :: n, found, c =>
    if c.head == quote then .ok (found, c)
    else do
      let (blanks, c) ← between start c
      let before := (Text.Codes.ofChars blanks).reverse ++ found
      let (found, c) ← word (quote == '"') start c.bound before c
      words quote start n found c

/-- Reads a quoted scalar from its opening quote on. -/
def scan (c : Cursor) : Except Fault Scanned := do
  let start := c.mark
  let quote := c.head
  let c := c.next
  let (first, c) ← word (quote == '"') start c.bound [] c
  let (cs, c) ← words quote start c.bound first c
  return ⟨cs.reverse, c.next.mark, c.next⟩

end Quoted

namespace Block

/-- What becomes of the line breaks at the end. -/
inductive Chomping where
  | clip
  | strip
  | keep
  deriving DecidableEq, Repr

def chomping? : Char → Option Chomping
  | '+' => some .keep
  | '-' => some .strip
  | _ => none

def increment? (start : Mark) (c : Cursor) : Except Fault (Option Nat × Cursor) :=
  if '0' ≤ c.head && c.head ≤ '9' then
    if c.head == '0' then
      .error (scanFault "while scanning a block scalar" start
        "expected indentation indicator in the range 1-9, but found 0" c.mark)
    else .ok (some (hexDigit c.head), c.next)
  else .ok (none, c)

/-- The marks after the sign of a block scalar, in either order. -/
def header (start : Mark) (c : Cursor) : Except Fault (Chomping × Option Nat × Cursor) := do
  let (chomping, increment, c) ← match chomping? c.head with
    | some k => do
      let (i, c) ← increment? start c.next
      pure (k, i, c)
    | none => do
      let (i, c) ← increment? start c
      match i, chomping? c.head with
      | some _, some k => pure (k, i, c.next)
      | _, _ => pure (.clip, i, c)
  if endsWord c.head then return (chomping, increment, c)
  else .error (scanFault "while scanning a block scalar" start
    ("expected chomping or indentation indicators, but found " ++ shownChar c.head) c.mark)

/-- The rest of a line that can only hold a comment. -/
def restOfLine (doing : String) (start : Mark) (c : Cursor) : Except Fault Cursor :=
  let c := (c.skipWhile (· == ' ')).skipComment
  if endsLine c.head then .ok ((c.lineBreak?.map Prod.snd).getD c)
  else .error (scanFault doing start
    ("expected a comment or a line break, but found " ++ shownChar c.head) c.mark)

/-- Lines without content, where the indentation is still open: their breaks, the widest
of them, and where they end. -/
def leading : List Char → List Char → Nat → Mark → Cursor → List Char × Nat × Mark × Cursor
  | [], found, widest, stop, c => (found.reverse, widest, stop, c)
  | _ :: n, found, widest, stop, c =>
    match c.lineBreak? with
    | some (b, c) => leading n (b :: found) widest c.mark c
    | none =>
      if c.head == ' ' then leading n found (max widest c.next.mark.column) stop c.next
      else (found.reverse, widest, stop, c)

/-- Goes past spaces up to a column. -/
def indentTo (column : Nat) : Nat → Cursor → Cursor
  | 0, c => c
  | n + 1, c =>
    if c.mark.column < column && c.head == ' ' then indentTo column n c.next else c

/-- Lines without content at a known indentation. -/
def emptyLines (column : Nat) : List Char → List Char → Mark → Cursor → List Char × Mark × Cursor
  | [], found, stop, c => (found.reverse, stop, c)
  | _ :: n, found, stop, c =>
    match c.lineBreak? with
    | some (b, c) => emptyLines column n (b :: found) c.mark (indentTo column column c)
    | none => (found.reverse, stop, c)

def emptyLinesFrom (column : Nat) (c : Cursor) : List Char × Mark × Cursor :=
  emptyLines column c.bound [] c.mark (indentTo column column c)

/-- What joins two lines. Folding leaves lines alone that start with a blank. -/
def join (folds : Bool) (first : Char) (lineBreak : List Char) (breaks : List Char) (next : Char) :
    List Char :=
  let isBlank := fun x : Char => x == ' ' || x == '\t'
  if folds && lineBreak == ['\n'] && !isBlank first && !isBlank next then
    if breaks.isEmpty then [' '] else []
  else lineBreak

/-- The lines of a block scalar: its text without the end, from the last character to the
first, the last line break, the empty lines after it, and where it ends. -/
def lines (folds : Bool) (column : Nat) : List Char → List Char → List Char → Mark → Cursor →
    List Char × List Char × List Char × Mark × Cursor
  | [], found, breaks, stop, c => (found, [], breaks, stop, c)
  | _ :: n, found, breaks, stop, c =>
    if c.mark.column != column || c.head == endChar then (found, [], breaks, stop, c)
    else
      let line := c.run fun x => !isBreak x
      let found := (breaks ++ line).reverse ++ found
      let (lineBreak, c') := match (c.skip line.length).lineBreak? with
        | some (b, c) => ([b], c)
        | none => ([], c.skip line.length)
      let (breaks, stop, after) := emptyLinesFrom column c'
      if after.mark.column == column && after.head != endChar then
        let joint := join folds c.head lineBreak breaks after.head
        lines folds column n (joint ++ found) breaks stop after
      else (found, lineBreak, breaks, stop, after)

/-- Reads a block scalar from its sign on, inside a block of a given indentation. -/
def scan (indent : Int) (c : Cursor) : Except Fault Scanned := do
  let start := c.mark
  let folds := c.head == '>'
  let (chomping, increment, c) ← header start c.next
  let c ← restOfLine "while scanning a block scalar" start c
  let least := max 1 (indent + 1).toNat
  let (breaks, stop, column, c) := match increment with
    | none =>
      let (breaks, widest, stop, c) := leading c.bound [] 0 c.mark c
      (breaks, stop, max least widest, c)
    | some i =>
      let column := least + i - 1
      let (breaks, stop, c) := emptyLinesFrom column c
      (breaks, stop, column, c)
  let (text, lineBreak, breaks, stop, c) := lines folds column c.bound [] breaks stop c
  let text := text.reverse ++ (if chomping = .strip then [] else lineBreak)
    ++ (if chomping = .keep then breaks else [])
  return ⟨.ofChars text, stop, c⟩

end Block

end RustMetrics.Yaml
