import RustMetrics.Yaml.Lexer
import RustMetrics.Yaml.Meaning

/-! What a YAML document holds: scalars, sequences and mappings, each with its type and
the place where it begins. They are numbered, and others refer to them by number, since
a document can name something and then hold it again, even inside of itself. A token is
looked at only when it is needed, so the first fault of a text is found, whatever its
sort. -/

namespace RustMetrics.Yaml

inductive Content where
  | scalar (type : String) (text : Text.Codes) (start : Mark)
  | sequence (type : String) (items : List Nat) (start : Mark)
  | mapping (type : String) (entries : List (Nat × Nat)) (start : Mark)
  deriving DecidableEq, Repr

namespace Content

def start : Content → Mark
  | scalar _ _ m => m
  | sequence _ _ m => m
  | mapping _ _ m => m

def type : Content → String
  | scalar t _ _ => t
  | sequence t _ _ => t
  | mapping t _ _ => t

def hasType (c : Content) (name : String) : Bool := c.type == standard name

/-- The same with another type. -/
def withType (type : String) : Content → Content
  | scalar _ s m => scalar type s m
  | sequence _ items m => sequence type items m
  | mapping _ entries m => mapping type entries m

/-- What messages call content. -/
def title : Content → String
  | scalar .. => "scalar"
  | sequence .. => "sequence"
  | mapping .. => "mapping"

def isMapping : Content → Bool
  | mapping .. => true
  | _ => false

def entries : Content → List (Nat × Nat)
  | mapping _ es _ => es
  | _ => []

def items : Content → List Nat
  | sequence _ ks _ => ks
  | _ => []

/-- Content that is left out. -/
def nothing (m : Mark) : Content := scalar (standard "null") [] m

end Content

/-- The content of a document by number. -/
abbrev Contents := Array Content

namespace Contents

def nth (cs : Contents) (k : Nat) : Content := cs.getD k (.nothing .start)

end Contents

/-- Reading a document: the tokens ahead, what was read, what names were given to, and
what short names types can begin with. A collection that is still being read counts as
empty. -/
structure Reader where
  lexer : Lexer
  contents : Contents := #[]
  named : List (String × Nat) := []
  handles : List (String × String) := []

abbrev Reading := StateT Reader (Except Fault)

/-- A fault in the order of tokens. -/
def readFault (doing : Option String) (since : Option Mark) (problem : String) (place : Mark) :
    Fault := ⟨"ParserError", doing, since, problem, some place⟩

def composeFault (doing : Option String) (since : Option Mark) (problem : String) (place : Mark) :
    Fault := ⟨"ComposerError", doing, since, problem, some place⟩

namespace Reading

/-- The next token. -/
def peek : Reading Token := do
  let r ← get
  let (t, l) ← r.lexer.first
  set { r with lexer := l }
  return t

/-- The next token, which is then gone. -/
def take : Reading Token := do
  let t ← peek
  modify fun r => { r with lexer := r.lexer.dropFirst }
  return t

/-- What stands before content: a name and a type. -/
structure Properties where
  name : Option String := none
  type : Option String := none
  start : Option Mark := none

/-- The type that a handle and a suffix make. -/
def resolveType (handle : Option String) (suffix : String) (start place : Mark) :
    Reading String := do
  match handle with
  | none => return suffix
  | some h =>
    match (← get).handles.lookup h with
    | some begin => return begin ++ suffix
    | none =>
      throw (readFault "while parsing a node" start ("found undefined tag handle " ++ Text.quoted h)
        place)

def properties : Reading Properties := do
  let t ← peek
  match t.kind with
  | .anchor name =>
    let _ ← take
    let t' ← peek
    match t'.kind with
    | .tag handle suffix =>
      let _ ← take
      return ⟨name, ← resolveType handle suffix t.start t'.start, t.start⟩
    | _ => return ⟨name, none, t.start⟩
  | .tag handle suffix =>
    let _ ← take
    let t' ← peek
    match t'.kind with
    | .anchor name =>
      let _ ← take
      return ⟨name, ← resolveType handle suffix t.start t.start, t.start⟩
    | _ => return ⟨none, ← resolveType handle suffix t.start t.start, t.start⟩
  | _ => return {}

/-- Gives content a number, and a name, which must be new. -/
def add (name : Option String) (c : Content) : Reading Nat := do
  let r ← get
  let k := r.contents.size
  let some name := name | do
    set { r with contents := r.contents.push c }
    return k
  if let some earlier := r.named.lookup name then
    throw (composeFault ("found duplicate anchor " ++ Text.quoted name ++ "; first occurrence")
      (r.contents.nth earlier).start "second occurrence" c.start)
  set { r with contents := r.contents.push c, named := (name, k) :: r.named }
  return k

/-- Content that is left out. -/
def addNothing (m : Mark) : Reading Nat := add none (.nothing m)

/-- Fills in content that has a number. -/
def fill (k : Nat) (c : Content) : Reading Nat := do
  modify fun r => { r with contents := r.contents.setIfInBounds k c }
  return k

/-- What a name was given to. -/
def numberOf (name : String) (place : Mark) : Reading Nat := do
  match (← get).named.lookup name with
  | some k => return k
  | none => throw (composeFault none none ("found undefined alias " ++ Text.quoted name) place)

/-- Whether a type is left to be found out. -/
def isOpen (type : Option String) : Bool := type.isNone || type == some "!"

/-- A scalar's type. Of those without one only plain ones can be anything but texts. -/
def scalarType (type : Option String) (isPlain : Bool) (text : Text.Codes) : String :=
  match type with
  | none => if isPlain then Meaning.typeOf text.chars else standard "str"
  | some "!" => Meaning.typeOf text.chars
  | some t => t

def typeOr (type : Option String) (default : String) : String :=
  if isOpen type then standard default else type.getD ""

/-- Whether the next token leaves an entry of a block empty. -/
def endsBlockItem : TokenKind → Bool
  | .key | .value | .blockEnd => true
  | _ => false

/-- Whether the next token leaves an entry in brackets empty. -/
def endsFlowItem (closing : TokenKind) (k : TokenKind) : Bool := k == .flowEntry || k == closing

def tooDeep (place : Mark) : Fault := readFault none none "nesting too deep" place

mutual

/-- Some content. In a block it can be a block, and as a value of a mapping a sequence
that is not indented. -/
def content : Nat → Bool → Bool → Reading Nat
  | 0, _, _ => do throw (tooDeep (← peek).start)
  | n + 1, isBlock, takesEntries => do
    let t ← peek
    match t.kind with
    | .reference name =>
      let _ ← take
      numberOf name t.start
    | _ =>
      let p ← properties
      let t ← peek
      let start := p.start.getD t.start
      let sequence := fun items => Content.sequence (typeOr p.type "seq") items start
      let mapping := fun pairs => Content.mapping (typeOr p.type "map") pairs start
      let scalar := fun isPlain text =>
        Content.scalar (scalarType p.type isPlain text) text start
      match t.kind, isBlock, takesEntries with
      | .blockEntry, _, true =>
        let k ← add p.name (sequence [])
        fill k (sequence (← entries n []))
      | .scalar text isPlain, _, _ =>
        let _ ← take
        add p.name (scalar isPlain text)
      | .flowSequence, _, _ =>
        let k ← add p.name (sequence [])
        let _ ← take
        fill k (sequence (← flowItems n t.start true []))
      | .flowMapping, _, _ =>
        let k ← add p.name (mapping [])
        let _ ← take
        fill k (mapping (← flowPairs n t.start true []))
      | .blockSequence, true, _ =>
        let k ← add p.name (sequence [])
        let _ ← take
        fill k (sequence (← blockItems n t.start []))
      | .blockMapping, true, _ =>
        let k ← add p.name (mapping [])
        let _ ← take
        fill k (mapping (← blockPairs n t.start []))
      | kind, _, _ =>
        if p.start.isSome then add p.name (scalar true [])
        else
          throw (readFault ("while parsing a " ++ (if isBlock then "block" else "flow") ++ " node")
            start ("expected the node content, but found " ++ Text.quoted kind.title) t.start)

/-- The entries of a sequence that is not indented. -/
def entries : Nat → List Nat → Reading (List Nat)
  | 0, _ => do throw (tooDeep (← peek).start)
  | n + 1, found => do
    let t ← peek
    match t.kind with
    | .blockEntry =>
      let _ ← take
      let t' ← peek
      let k ← if t'.kind == .blockEntry || endsBlockItem t'.kind then addNothing t.stop
        else content n true false
      entries n (k :: found)
    | _ => return found.reverse

def blockItems : Nat → Mark → List Nat → Reading (List Nat)
  | 0, _, _ => do throw (tooDeep (← peek).start)
  | n + 1, start, found => do
    let t ← take
    match t.kind with
    | .blockEntry =>
      let t' ← peek
      let k ← if t'.kind == .blockEntry || t'.kind == .blockEnd then addNothing t.stop
        else content n true false
      blockItems n start (k :: found)
    | .blockEnd => return found.reverse
    | kind =>
      throw (readFault "while parsing a block collection" start
        ("expected <block end>, but found " ++ Text.quoted kind.title) t.start)

/-- The value that follows a key of a block. -/
def blockValue : Nat → Reading Nat
  | 0 => do throw (tooDeep (← peek).start)
  | n + 1 => do
    let t ← peek
    match t.kind with
    | .value =>
      let _ ← take
      let t' ← peek
      if endsBlockItem t'.kind then addNothing t.stop else content n true true
    | _ => addNothing t.start

def blockPairs : Nat → Mark → List (Nat × Nat) → Reading (List (Nat × Nat))
  | 0, _, _ => do throw (tooDeep (← peek).start)
  | n + 1, start, found => do
    let t ← take
    match t.kind with
    | .key =>
      let t' ← peek
      let k ← if endsBlockItem t'.kind then addNothing t.stop else content n true true
      let v ← blockValue n
      blockPairs n start ((k, v) :: found)
    | .blockEnd => return found.reverse
    | kind =>
      throw (readFault "while parsing a block mapping" start
        ("expected <block end>, but found " ++ Text.quoted kind.title) t.start)

/-- The key after its mark, in brackets. -/
def flowKey : Nat → TokenKind → Token → Reading Nat
  | 0, _, t => do throw (tooDeep t.start)
  | n + 1, closing, t => do
    let t' ← peek
    if t'.kind == .value || endsFlowItem closing t'.kind then addNothing t.stop
    else content n false false

/-- The value that follows a key in brackets. -/
def flowValue : Nat → TokenKind → Reading Nat
  | 0, _ => do throw (tooDeep (← peek).start)
  | n + 1, closing => do
    let t ← peek
    match t.kind with
    | .value =>
      let _ ← take
      let t' ← peek
      if endsFlowItem closing t'.kind then addNothing t.stop else content n false false
    | _ => addNothing t.start

def flowItems : Nat → Mark → Bool → List Nat → Reading (List Nat)
  | 0, _, _, _ => do throw (tooDeep (← peek).start)
  | n + 1, start, isFirst, found => do
    let t ← peek
    if t.kind == .flowSequenceEnd then
      let _ ← take
      return found.reverse
    if !isFirst then
      if t.kind != .flowEntry then
        throw (readFault "while parsing a flow sequence" start
          ("expected ',' or ']', but got " ++ Text.quoted t.kind.title) t.start)
      let _ ← take
    let t ← peek
    match t.kind with
    | .key =>
      let pair := fun es => Content.mapping (standard "map") es t.start
      let place ← add none (pair [])
      let _ ← take
      let k ← flowKey n .flowSequenceEnd t
      let v ← flowValue n .flowSequenceEnd
      flowItems n start false ((← fill place (pair [(k, v)])) :: found)
    | .flowSequenceEnd =>
      let _ ← take
      return found.reverse
    | _ => flowItems n start false ((← content n false false) :: found)

def flowPairs : Nat → Mark → Bool → List (Nat × Nat) → Reading (List (Nat × Nat))
  | 0, _, _, _ => do throw (tooDeep (← peek).start)
  | n + 1, start, isFirst, found => do
    let t ← peek
    if t.kind == .flowMappingEnd then
      let _ ← take
      return found.reverse
    if !isFirst then
      if t.kind != .flowEntry then
        throw (readFault "while parsing a flow mapping" start
          ("expected ',' or '\x7d', but got " ++ Text.quoted t.kind.title) t.start)
      let _ ← take
    let t ← peek
    match t.kind with
    | .key =>
      let _ ← take
      let k ← flowKey n .flowMappingEnd t
      let v ← flowValue n .flowMappingEnd
      flowPairs n start false ((k, v) :: found)
    | .flowMappingEnd =>
      let _ ← take
      return found.reverse
    | _ =>
      let k ← content n false false
      let t ← peek
      flowPairs n start false ((k, ← addNothing t.start) :: found)

end

/-- The short names that every document knows. -/
def commonHandles : List (String × String) := [("!", "!"), ("!!", standard "")]

/-- The directives before a document. -/
def directives : Nat → Option Nat → List (String × String) → Reading Unit
  | 0, _, handles => modify fun r => { r with handles := handles ++ commonHandles }
  | n + 1, version, handles => do
    let t ← peek
    match t.kind with
    | .directive (.version major) =>
      let _ ← take
      if version.isSome then
        throw (readFault none none "found duplicate YAML directive" t.start)
      if major != 1 then
        throw (readFault none none
          "found incompatible YAML document (version 1.* is required)" t.start)
      directives n (some major) handles
    | .directive (.handle name begin) =>
      let _ ← take
      if (handles.lookup name).isSome then
        throw (readFault none none ("duplicate tag handle " ++ Text.quoted name) t.start)
      directives n version (handles ++ [(name, begin)])
    | .directive .other =>
      let _ ← take
      directives n version handles
    | _ => modify fun r => { r with handles := handles ++ commonHandles }

/-- Goes past the marks that end documents. -/
def skipEnds : Nat → Reading Unit
  | 0 => return
  | n + 1 => do
    let t ← peek
    if t.kind == .documentEnd then
      let _ ← take
      skipEnds n

/-- The beginning of a document that is marked as one: nothing if the text ends instead,
or else where its directives begin. -/
def opening (n : Nat) : Reading (Option Mark) := do
  skipEnds n
  let t ← peek
  if t.kind == .streamEnd then return none
  directives n none []
  let t' ← peek
  if t'.kind != .documentStart then
    throw (readFault none none
      ("expected '<document start>', but found " ++ Text.quoted t'.kind.title) t'.start)
  let _ ← take
  return some t.start

/-- The content of a document that is marked as one. -/
def markedContent (n : Nat) : Reading Nat := do
  let t ← peek
  match t.kind with
  | .directive _ | .documentStart | .documentEnd | .streamEnd => addNothing t.start
  | _ => content n true false

/-- The first document, if there is one. -/
def firstDocument (n : Nat) : Reading (Option Nat) := do
  let t ← peek
  match t.kind with
  | .directive _ | .documentStart | .streamEnd =>
    match ← opening n with
    | none => return none
    | some _ => return some (← markedContent n)
  | _ =>
    modify fun r => { r with handles := commonHandles }
    return some (← content n true false)

/-- The only document of a text. -/
def document (n : Nat) : Reading (Option Nat) := do
  match ← firstDocument n with
  | none => return none
  | some k =>
    skipEnds 1
    match ← opening n with
    | none => return some k
    | some place =>
      let c := (← get).contents.nth k
      throw (composeFault "expected a single document in the stream" c.start
        "but found another document" place)

end Reading

/-- More steps than any reading of a text can take. -/
def steps (text : List Char) : Nat := 8 * text.length + 64

/-- A document: what it holds, and the number of what holds everything else. -/
structure Document where
  contents : Contents
  top : Nat

/-- The document of a text. -/
def document (text : List Char) : Except Fault (Option Document) := do
  let (top, r) ← (Reading.document (steps text)).run { lexer := .ofText text }
  return top.map fun k => ⟨r.contents, k⟩

end RustMetrics.Yaml
