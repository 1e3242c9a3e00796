import RustMetrics.Yaml.Property

/-! From characters to tokens. A key need not be marked as one: anything at the start of
a line may turn out to be a key when its colon comes. Until then it is pending, and
what follows it waits in a queue. -/

namespace RustMetrics.Yaml

/-- Something that may be a key. It is required to be one where nothing else can stand. -/
structure PendingKey where
  number : Nat
  required : Bool
  mark : Mark
  deriving DecidableEq, Repr

/-- `taken` counts the tokens that have left the queue. `flow` is the depth of brackets,
which a stray closing bracket can make negative, and pending keys are kept by it. -/
structure Lexer where
  cursor : Cursor
  queue : List Token := []
  taken : Nat := 0
  indent : Int := -1
  indents : List Int := []
  flow : Int := 0
  allowsKey : Bool := true
  pending : List (Int × PendingKey) := []
  done : Bool := false

namespace Lexer

def ofText (text : List Char) : Lexer := { cursor := .ofText text }

def mark (l : Lexer) : Mark := l.cursor.mark

def column (l : Lexer) : Int := l.cursor.mark.column

def inFlow (l : Lexer) : Bool := l.flow != 0

def noColon (l : Lexer) (k : PendingKey) : Fault :=
  scanFault "while scanning a simple key" k.mark "could not find expected ':'" l.mark

/-- The farthest that a colon can be from the start of its key. -/
def keyReach : Nat := 1024

def isStale (l : Lexer) (k : PendingKey) : Bool :=
  k.mark.line != l.mark.line || keyReach < l.mark.index - k.mark.index

/-- Gives up pending keys that are too far back. -/
def dropStale (l : Lexer) : Except Fault Lexer :=
  match l.pending.find? fun x => l.isStale x.2 && x.2.required with
  | some (_, k) => .error (l.noColon k)
  | none => .ok { l with pending := l.pending.filter fun x => !l.isStale x.2 }

/-- Gives up the pending key of the present depth. -/
def dropKey (l : Lexer) : Except Fault Lexer :=
  match l.pending.lookup l.flow with
  | none => .ok l
  | some k =>
    if k.required then .error (l.noColon k)
    else .ok { l with pending := l.pending.filter fun x => x.1 != l.flow }

/-- Remembers that a key may begin here. -/
def saveKey (l : Lexer) : Except Fault Lexer :=
  if !l.allowsKey then .ok l
  else do
    let k : PendingKey := ⟨l.taken + l.queue.length, !l.inFlow && l.indent == l.column, l.mark⟩
    let l ← l.dropKey
    return { l with pending := l.pending ++ [(l.flow, k)] }

def push (l : Lexer) (t : Token) : Lexer := { l with queue := l.queue ++ [t] }

/-- Adds a token without text. -/
def pushHere (l : Lexer) (kind : TokenKind) : Lexer := l.push ⟨kind, l.mark, l.mark⟩

/-- Adds a token of some characters and goes past them. -/
def pushChars (l : Lexer) (kind : TokenKind) (length : Nat) : Lexer :=
  let after := l.cursor.skip length
  { l.push ⟨kind, l.mark, after.mark⟩ with cursor := after }

/-- Ends the blocks that are indented more than a column. -/
def unwindFrom (l : Lexer) (column : Int) : List Int → Lexer
  | [] => l
  | outer :: rest =>
    if l.indent ≤ column then l
    else unwindFrom { l.pushHere .blockEnd with indent := outer, indents := rest } column rest

def unwind (l : Lexer) (column : Int) : Lexer :=
  if l.inFlow then l else l.unwindFrom column l.indents

/-- Begins a block at a column, if it is indented more than the present one. -/
def indentTo (l : Lexer) (column : Int) : Option Lexer :=
  if l.indent < column then some { l with indent := column, indents := l.indent :: l.indents }
  else none

/-- Goes past spaces, comments and line breaks. After a line break a key may begin,
unless brackets are open. -/
def skipBlanks : List Char → Lexer → Lexer
  | [], l => l
  | _ :: n, l =>
    let c := (l.cursor.skipWhile (· == ' ')).skipComment
    match c.lineBreak? with
    | some (_, c) => skipBlanks n { l with cursor := c, allowsKey := l.allowsKey || !l.inFlow }
    | none => { l with cursor := c }

/-- Goes to the next token. A byte order mark at the very start is no token. -/
def toNext (l : Lexer) : Lexer :=
  let c := if l.mark.index = 0 && l.cursor.head.toNat == 0xFEFF then l.cursor.next else l.cursor
  skipBlanks c.bound { l with cursor := c }

def streamEnd (l : Lexer) : Except Fault Lexer := do
  let l ← (l.unwind (-1)).dropKey
  return { l.pushHere .streamEnd with allowsKey := false, pending := [], done := true }

/-- A token at the start of a line that ends all blocks. -/
def documentMark (l : Lexer) (kind : TokenKind) : Except Fault Lexer := do
  let l ← (l.unwind (-1)).dropKey
  return { l with allowsKey := false }.pushChars kind 3

def directive (l : Lexer) : Except Fault Lexer := do
  let l ← (l.unwind (-1)).dropKey
  let (d, stop, after) ← Directive.scan l.cursor
  return { l.push ⟨.directive d, l.mark, stop⟩ with cursor := after, allowsKey := false }

def flowStart (l : Lexer) (kind : TokenKind) : Except Fault Lexer := do
  let l ← l.saveKey
  return { l with flow := l.flow + 1, allowsKey := true }.pushChars kind 1

def flowEnd (l : Lexer) (kind : TokenKind) : Except Fault Lexer := do
  let l ← l.dropKey
  return { l with flow := l.flow - 1, allowsKey := false }.pushChars kind 1

def flowEntry (l : Lexer) : Except Fault Lexer := do
  let l ← l.dropKey
  return { l with allowsKey := true }.pushChars .flowEntry 1

/-- Begins a block here, if it needs a new one; `kind` is its first token. -/
def openBlock (l : Lexer) (kind : TokenKind) : Lexer :=
  match l.indentTo l.column with
  | some indented => indented.pushHere kind
  | none => l

def blockEntry (l : Lexer) : Except Fault Lexer := do
  if !l.inFlow && !l.allowsKey then
    throw (scanFault none none "sequence entries are not allowed here" l.mark)
  let l := if l.inFlow then l else l.openBlock .blockSequence
  let l ← { l with allowsKey := true }.dropKey
  return l.pushChars .blockEntry 1

def key (l : Lexer) : Except Fault Lexer := do
  if !l.inFlow && !l.allowsKey then
    throw (scanFault none none "mapping keys are not allowed here" l.mark)
  let l := if l.inFlow then l else l.openBlock .blockMapping
  let l ← { l with allowsKey := !l.inFlow }.dropKey
  return l.pushChars .key 1

/-- Puts tokens into the queue where a key begins. -/
def insertAt (l : Lexer) (k : PendingKey) (kinds : List TokenKind) : Lexer :=
  let place := k.number - l.taken
  { l with
    queue := l.queue.take place ++ kinds.map (⟨·, k.mark, k.mark⟩) ++ l.queue.drop place }

/-- A colon. It makes a key of what is pending, or stands for itself. -/
def value (l : Lexer) : Except Fault Lexer :=
  match l.pending.lookup l.flow with
  | some k =>
    let l := { l with pending := l.pending.filter fun x => x.1 != l.flow, allowsKey := false }
    let l := match (if l.inFlow then none else l.indentTo k.mark.column) with
      | some indented => indented.insertAt k [.blockMapping, .key]
      | none => l.insertAt k [.key]
    .ok (l.pushChars .value 1)
  | none => do
    if !l.inFlow && !l.allowsKey then
      throw (scanFault none none "mapping values are not allowed here" l.mark)
    let l := if l.inFlow then l else l.openBlock .blockMapping
    let l ← { l with allowsKey := !l.inFlow }.dropKey
    return l.pushChars .value 1

def name (l : Lexer) (what : String) (kind : String → TokenKind) : Except Fault Lexer := do
  let l ← l.saveKey
  let (text, after) ← Property.name what l.cursor
  return { l.push ⟨kind text, l.mark, after.mark⟩ with cursor := after, allowsKey := false }

def tag (l : Lexer) : Except Fault Lexer := do
  let l ← l.saveKey
  let (kind, after) ← Property.tag l.cursor
  return { l.push ⟨kind, l.mark, after.mark⟩ with cursor := after, allowsKey := false }

def blockScalar (l : Lexer) : Except Fault Lexer := do
  let l ← { l with allowsKey := true }.dropKey
  let s ← Block.scan l.indent l.cursor
  return { l.push ⟨.scalar s.text false, l.mark, s.stop⟩ with cursor := s.cursor }

def quoted (l : Lexer) : Except Fault Lexer := do
  let l ← l.saveKey
  let s ← Quoted.scan l.cursor
  return { l.push ⟨.scalar s.text false, l.mark, s.stop⟩ with
    cursor := s.cursor, allowsKey := false }

def plain (l : Lexer) : Except Fault Lexer := do
  let l ← l.saveKey
  let s := Plain.scan l.inFlow (l.indent + 1) l.cursor
  return { l.push ⟨.scalar s.scanned.text true, l.mark, s.scanned.stop⟩ with
    cursor := s.scanned.cursor, allowsKey := s.crossesLine }

/-- The characters that mean something where a token can begin. -/
def isIndicator (c : Char) : Bool := "-?:,[]\x7b\x7d#&*!|>'\"%@`".toList.contains c

/-- Whether a plain scalar can begin with the next character. -/
def startsPlain (l : Lexer) : Bool :=
  let c := l.cursor.head
  (!isGap c && !isIndicator c) ||
    (!isGap (l.cursor.peek 1) && (c == '-' || (!l.inFlow && (c == '?' || c == ':'))))

/-- Reads the token that comes next, with those that it brings along. -/
def fetch (l : Lexer) : Except Fault Lexer := do
  let l ← l.toNext.dropStale
  let l := l.unwind l.column
  let c := l.cursor.head
  let atStart := l.cursor.mark.column = 0
  let standsAlone := isGap (l.cursor.peek 1)
  if c == endChar then l.streamEnd
  else if c == '%' && atStart then l.directive
  else if c == '-' && atStart && l.cursor.atSeparator then l.documentMark .documentStart
  else if c == '.' && atStart && l.cursor.atSeparator then l.documentMark .documentEnd
  else if c == '[' then l.flowStart .flowSequence
  else if c == '\x7b' then l.flowStart .flowMapping
  else if c == ']' then l.flowEnd .flowSequenceEnd
  else if c == '\x7d' then l.flowEnd .flowMappingEnd
  else if c == ',' then l.flowEntry
  else if c == '-' && standsAlone then l.blockEntry
  else if c == '?' && (l.inFlow || standsAlone) then l.key
  else if c == ':' && (l.inFlow || standsAlone) then l.value
  else if c == '*' then l.name "alias" .reference
  else if c == '&' then l.name "anchor" .anchor
  else if c == '!' then l.tag
  else if (c == '|' || c == '>') && !l.inFlow then l.blockScalar
  else if c == '\'' || c == '"' then l.quoted
  else if l.startsPlain then l.plain
  else .error (scanFault "while scanning for the next token" none
    ("found character " ++ shownChar c ++ " that cannot start any token") l.mark)

/-- Whether the first token of the queue is still open: there is none, or it may turn
out to begin a key. -/
def isOpen (l : Lexer) : Bool :=
  !l.done && (l.queue.isEmpty || l.pending.any fun x => x.2.number == l.taken)

/-- Reads tokens until the first one is settled. -/
def settle : Nat → Lexer → Except Fault Lexer
  | 0, l => .ok l
  | n + 1, l => do
    let l ← if l.done || l.queue.isEmpty then pure l else l.dropStale
    if l.isOpen then settle n (← l.fetch) else return l

/-- The first token, once it is settled. After the end there is nothing but the end. Each
token has a character at least, so no key is pending for longer than its reach. -/
def first (l : Lexer) : Except Fault (Token × Lexer) := do
  let l ← settle (keyReach + 8) l
  return (l.queue.head?.getD ⟨.streamEnd, l.mark, l.mark⟩, l)

/-- Takes the first token away. -/
def dropFirst (l : Lexer) : Lexer := { l with queue := l.queue.tail, taken := l.taken + 1 }

end Lexer

end RustMetrics.Yaml
