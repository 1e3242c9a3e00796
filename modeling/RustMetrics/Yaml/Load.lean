import RustMetrics.Settings.Spread
import RustMetrics.Settings.Value
import RustMetrics.Yaml.Base64
import RustMetrics.Yaml.Content
import RustMetrics.Yaml.Number

/-! The value of a YAML document. Its collections are looked into one after another, in the
order in which they are met, so of several faults the one nearest to the top is told. -/

namespace RustMetrics.Yaml

/-- A fault in what a document holds. -/
def buildFault (doing : Option String) (since : Option Mark) (problem : String) (place : Mark) :
    Fault := ⟨"ConstructorError", doing, since, problem, some place⟩

namespace Content

/-- Collections are looked into only after everything beside them. -/
def isCollection (c : Content) : Bool :=
  ["seq", "map", "set", "omap", "pairs"].any c.hasType

/-- Content that is not what its type needs. -/
def mismatch (c : Content) (wanted : String) : Fault :=
  buildFault none none ("expected a " ++ wanted ++ " node, but found " ++ c.title) c.start

end Content

def truth (cs : Text.Codes) : Except Fault Bool :=
  let word := cs.lower
  if ["yes", "true", "on"].any (Number.isWord word) then .ok true
  else if ["no", "false", "off"].any (Number.isWord word) then .ok false
  else .error (Number.bare "KeyError" word.quoted)

/-- The day or the moment that a text is. -/
def moment (cs : Text.Codes) : Except Fault Scalar :=
  let checked := fun (problem : Option String) (s : Scalar) =>
    match problem with
    | some problem => .error (Number.bare "ValueError" problem)
    | none => .ok s
  match Meaning.written? (Meaning.withoutBreak cs.chars) with
  | none => .error (Number.bare "AttributeError" "'NoneType' object has no attribute 'groupdict'")
  | some ⟨date, _, none⟩ => checked date.problem? (.date date)
  | some ⟨_, _, some m⟩ => checked m.problem? (.moment m)

/-- The bytes that a text stands for. -/
def data (cs : Text.Codes) (place : Mark) : Except Fault (List UInt8) :=
  match Base64.foreign? cs with
  | some problem => .error (buildFault none none
      ("failed to convert base64 data into ascii: " ++ problem) place)
  | none =>
    match Base64.decode cs.chars with
    | .ok bytes => .ok bytes
    | .error problem => .error (buildFault none none
        ("failed to decode base64 data: " ++ problem) place)

/-- A moment must be a scalar itself. -/
def notText : Fault :=
  Number.bare "TypeError" "expected string or bytes-like object, got 'list'"

/-- A mapping cannot be its own text. -/
def endless : Fault := Number.bare "RecursionError" "maximum recursion depth exceeded"

namespace Contents

/-- The text of content that must be a scalar. A mapping can have one as its value. With
more steps than there is content, a mapping has been met twice. -/
def text (cs : Contents) : Nat → Nat → Except Fault Text.Codes
  | 0, _ => .error endless
  | n + 1, k =>
    match cs.nth k with
    | .scalar _ s _ => .ok s
    | .sequence t items m => .error ((Content.sequence t items m).mismatch "scalar")
    | .mapping t entries m =>
      match entries.find? fun e => (cs.nth e.1).hasType "value" with
      | some e => cs.text n e.2
      | none => .error ((Content.mapping t entries m).mismatch "scalar")

/-- The value of content that is no collection. -/
def scalar (cs : Contents) (k : Nat) : Except Fault Scalar := do
  let c := cs.nth k
  let text := cs.text (cs.size + 1) k
  if c.hasType "null" then return (← text.map fun _ => .null)
  else if c.hasType "bool" then return .bool (← truth (← text))
  else if c.hasType "int" then return .int (← Number.integer (← text))
  else if c.hasType "float" then return .float (Text.Decimal.text (← Number.float (← text)))
  else if c.hasType "str" then return .ofCodes (← text)
  else if c.hasType "timestamp" then
    let s ← text
    if c.isMapping then throw notText
    moment s
  else if c.hasType "binary" then return .bytes (← data (← text) c.start)
  else throw (buildFault none none
    ("could not determine a constructor for the tag " ++ Text.quoted c.type) c.start)

def setEntries (cs : Contents) (k : Nat) (es : List (Nat × Nat)) : Contents :=
  match cs.nth k with
  | .mapping t _ m => cs.setIfInBounds k (.mapping t es m)
  | _ => cs

end Contents

/-- Going through a document: what it holds, and what was met already. -/
structure Builder where
  contents : Contents
  met : Array Bool

abbrev Building := StateT Builder (Except Fault)

namespace Building

def contentAt (k : Nat) : Building Content := return (← get).contents.nth k

def setEntries (k : Nat) (es : List (Nat × Nat)) : Building Unit :=
  modify fun b => { b with contents := b.contents.setEntries k es }

/-- A key with the mark of a default value is a text like others. -/
def makeText (k : Nat) : Building Unit :=
  modify fun b => { b with
    contents := b.contents.setIfInBounds k ((b.contents.nth k).withType (standard "str")) }

def mergeFault (start : Mark) (wanted : String) (found : Content) : Fault :=
  buildFault "while constructing a mapping" start
    ("expected a " ++ wanted ++ " for merging, but found " ++ found.title) found.start

mutual

/-- Puts the entries that are merged into a mapping in front of its own. -/
def flatten : Nat → Nat → Building Unit
  | 0, _ => return
  | n + 1, k => do
    let merged ← collect n k 0 []
    if !merged.isEmpty then setEntries k (merged ++ (← contentAt k).entries)

/-- The entries that are merged into a mapping, from some entry on and after those found.
What names them is taken out of the mapping. -/
def collect : Nat → Nat → Nat → List (Nat × Nat) → Building (List (Nat × Nat))
  | 0, _, _, found => return found
  | n + 1, k, i, found => do
    let c ← contentAt k
    let some (key, v) := c.entries[i]? | return found
    let keyContent ← contentAt key
    if keyContent.hasType "merge" then
      setEntries k (c.entries.eraseIdx i)
      let more ← match ← contentAt v with
        | .mapping .. => do
          flatten n v
          pure (← contentAt v).entries
        | .sequence _ items _ => collectAll n c.start items
        | other => throw (mergeFault c.start "mapping or list of mappings" other)
      collect n k i (found ++ more)
    else
      if keyContent.hasType "value" then makeText key
      collect n k (i + 1) found

/-- The entries of several mappings. The first comes last, so its entries win. -/
def collectAll : Nat → Mark → List Nat → Building (List (Nat × Nat))
  | 0, _, _ => return []
  | _, _, [] => return []
  | n + 1, start, k :: ks => do
    let c ← contentAt k
    if !c.isMapping then throw (mergeFault start "mapping" c)
    flatten n k
    let es := (← contentAt k).entries
    return (← collectAll n start ks) ++ es

end

/-- Meets content. The first time it is checked, or left for later if it is a
collection. -/
def meet (k : Nat) : Building (List Nat) := do
  let b ← get
  if b.met.getD k false then return []
  set { b with met := b.met.setIfInBounds k true }
  if (b.contents.nth k).isCollection then return [k]
  let _ ← b.contents.scalar k
  return []

/-- Meets the key and the value of an entry. A key cannot be a collection. -/
def meetEntry (start : Mark) (entry : Nat × Nat) : Building (List Nat) := do
  let key ← meet entry.1
  let c ← contentAt entry.1
  if c.isCollection then
    throw (buildFault "while constructing a mapping" start "found unhashable key" c.start)
  return key ++ (← meet entry.2)

/-- Meets an item of a sequence of single entries. -/
def meetPair (doing : String) (start : Mark) (k : Nat) : Building (List Nat) := do
  match ← contentAt k with
  | .mapping _ [(key, v)] _ => return (← meet key) ++ (← meet v)
  | .mapping _ es m => throw (buildFault doing start
      ("expected a single mapping item, but found " ++ toString es.length ++ " items") m)
  | c => throw (buildFault doing start
      ("expected a mapping of length 1, but found " ++ c.title) c.start)

/-- Meets a sequence of single entries. -/
def meetPairs (doing : String) (c : Content) : Building (List Nat) :=
  match c with
  | .sequence _ ks m => return (← ks.mapM (meetPair doing m)).flatten
  | c => throw (buildFault doing c.start ("expected a sequence, but found " ++ c.title) c.start)

/-- Looks into a collection, with so many steps for merging. -/
def look (n k : Nat) : Building (List Nat) := do
  let c ← contentAt k
  if c.hasType "seq" then
    match c with
    | .sequence _ ks _ => return (← ks.mapM meet).flatten
    | c => throw (c.mismatch "sequence")
  else if c.hasType "omap" then meetPairs "while constructing an ordered map" c
  else if c.hasType "pairs" then meetPairs "while constructing pairs" c
  else if c.isMapping then
    flatten n k
    return (← (← contentAt k).entries.mapM (meetEntry c.start)).flatten
  else throw (c.mismatch "mapping")

/-- Looks into collections, and then into those met there. -/
def lookAll (n : Nat) : Nat → List Nat → Building Unit
  | _, [] => return
  | 0, _ => return
  | m + 1, ks => do lookAll n m (← ks.mapM (look n)).flatten

end Building

/-- The value of content, with the values that are known already. What holds itself is
none of these. -/
abbrev Known := Array (Option Value)

abbrev Valuing := StateM Known

namespace Contents

def scalarD (cs : Contents) (k : Nat) : Scalar :=
  match cs.scalar k with
  | .ok s => s
  | .error _ => .null

mutual

/-- The value of content, and whether something in it was cut short. `above` has the
collections around it, in which it is cut short where it comes to them again. -/
def value (cs : Contents) : Nat → List Nat → Nat → Valuing (Value × Bool)
  | 0, _, _ => return (.null, false)
  | n + 1, above, k => do
    let c := cs.nth k
    if !c.isCollection then return (.scalar (cs.scalarD k), false)
    if above.contains k then return (.again c.isMapping, true)
    if let some v := (← get).getD k none then return (v, false)
    let (v, isCut) ← cs.collection n (k :: above) c
    if !isCut then modify fun known => known.setIfInBounds k (some v)
    return (v, isCut)

/-- The value of a collection. -/
def collection (cs : Contents) : Nat → List Nat → Content → Valuing (Value × Bool)
  | 0, _, _ => return (.null, false)
  | n + 1, above, c => do
    if c.hasType "set" then
      return (.set (Spread.members ((c.entries.map fun e => (cs.scalarD e.1, Value.null)).foldl
        (fun found e => Entries.setSame e.1 e.2 found) [] |>.map Prod.fst)), false)
    else if c.hasType "map" then
      let vs ← c.entries.mapM fun e => cs.value n above e.2
      let es := (c.entries.zip vs).foldl
        (fun found e => Entries.setSame (cs.scalarD e.1.1) e.2.1 found) []
      return (.map es, vs.any Prod.snd)
    else if c.hasType "seq" then
      let vs ← c.items.mapM (cs.value n above)
      return (.list (vs.map Prod.fst), vs.any Prod.snd)
    else
      let vs ← c.items.mapM fun k => do
        let es ← (cs.nth k).entries.mapM fun e =>
          return [← cs.value n above e.1, ← cs.value n above e.2]
        let vs := es.flatten
        return (Value.tuple (vs.map Prod.fst), vs.any Prod.snd)
      return (.list (vs.map Prod.fst), vs.any Prod.snd)

end

/-- The value of content that can be taken apart again: in so many levels of mappings,
what stands at a key is a value of its own. -/
def outerValue (cs : Contents) (n : Nat) : Nat → Nat → Valuing Value
  | 0, k => return (← cs.value n [] k).1
  | levels + 1, k => do
    let c := cs.nth k
    if !c.hasType "map" then return (← cs.value n [] k).1
    let vs ← c.entries.mapM fun e => cs.outerValue n levels e.2
    return .map ((c.entries.zip vs).foldl
      (fun found e => Entries.setSame (cs.scalarD e.1.1) e.2 found) [])

end Contents

/-- The levels at which settings are taken apart: their sections, and what is in those. -/
def sectionLevels : Nat := 2

/-- The characters that a text may have. -/
def isAllowed (c : Char) : Bool :=
  let n := c.toNat
  n == 0x09 || n == 0x0A || n == 0x0D || (0x20 ≤ n && n ≤ 0x7E) || n == 0x85 ||
    (0xA0 ≤ n && n ≤ 0xFFFD) || 0x10000 ≤ n

/-- The fault of a text with a character that none may have. -/
def refused? (text : List Char) : Option Fault :=
  (text.zipIdx.find? fun x => !isAllowed x.1).map fun x =>
    Number.bare "ReaderError" ("unacceptable character #x" ++ .ofList (Text.hex 4 x.1.toNat) ++
      ": special characters are not allowed\n  in \"<unicode string>\", position " ++
      toString x.2)

/-- The value of a document. -/
def Document.value (d : Document) (n : Nat) : Except Fault Value := do
  let size := d.contents.size
  let start : Builder := ⟨d.contents, .replicate size false⟩
  let go : Building Unit := do
    Building.lookAll (n * n) (size + 1) (← Building.meet d.top)
  let (_, b) ← go.run start
  let valuing := b.contents.outerValue (2 * size + 2) sectionLevels d.top
  return (valuing.run (.replicate size none)).1

/-- The value of a text. One without a document is nothing. -/
def build (text : List Char) : Except Fault Value := do
  if let some fault := refused? text then throw fault
  match ← document text with
  | none => return .null
  | some d => d.value (steps text)

/-- Reads a YAML text. -/
def load (text : String) : Except Failure Value :=
  (build text.toList).mapError fun fault => fault.failure text.toList

end RustMetrics.Yaml
