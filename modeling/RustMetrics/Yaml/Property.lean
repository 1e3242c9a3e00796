import RustMetrics.Yaml.Scalar
import RustMetrics.Yaml.Token

/-! Names, types and directives. -/

namespace RustMetrics.Yaml

def unexpected (wanted : String) (c : Char) : String := wanted ++ ", but found " ++ shownChar c

namespace Property

/-- The characters that can follow a name. -/
def endsName (c : Char) : Bool := isGap c || "?:,]\x7d%@`".toList.contains c

/-- A name after its sign. `what` is how messages call it. -/
def name (what : String) (c : Cursor) : Except Fault (String × Cursor) :=
  let start := c.mark
  let c := c.next
  let found := c.run isNameChar
  let after := c.skip found.length
  let wanted := "expected alphabetic or numeric character"
  if found.isEmpty || !endsName after.head then
    .error (scanFault ("while scanning an " ++ what) start (unexpected wanted after.head)
      after.mark)
  else .ok (.ofList found, after)

/-- The characters of a type as it is written. -/
def isUriChar (c : Char) : Bool :=
  isLetterOrDigit c || "-;/?:@&=+$,_.!~*'()[]%".toList.contains c

/-- The bytes that percent signs stand for. -/
def escapes (what : String) (start : Mark) :
    List Char → List UInt8 → Cursor → Except Fault (List UInt8 × Cursor)
  | [], found, c => .ok (found, c)
  | _ :: n, found, c =>
    if c.head != '%' then .ok (found, c)
    else
      let c := c.next
      match [0, 1].find? fun k => !isHexChar (c.peek k) with
      | some k =>
        .error (scanFault ("while scanning a " ++ what) start
          (unexpected "expected URI escape sequence of 2 hexadecimal numbers" (c.peek k)) c.mark)
      | none => escapes what start n (found ++ [(hexNumber (c.rest.take 2)).toUInt8]) (c.skip 2)

def uriRest (what : String) (start : Mark) :
    List Char → List Char → Cursor → Except Fault (List Char × Cursor)
  | [], found, c => .ok (found, c)
  | _ :: n, found, c =>
    if c.head == '%' then do
      let (bytes, after) ← escapes what start c.bound [] c
      match Utf8.decode bytes with
      | .ok text => uriRest what start n (found ++ text.toList) after
      | .error e =>
        .error (scanFault ("while scanning a " ++ what) start e.message c.mark)
    else if isUriChar c.head then uriRest what start n (found ++ [c.head]) c.next
    else .ok (found, c)

/-- A type, or the beginning of one. -/
def uri (what : String) (start : Mark) (c : Cursor) : Except Fault (String × Cursor) := do
  let (found, after) ← uriRest what start c.bound [] c
  if found.isEmpty && after.mark == c.mark then
    .error (scanFault ("while parsing a " ++ what) start (unexpected "expected URI" c.head) c.mark)
  else return (.ofList found, after)

/-- The short name that a type begins with, between two exclamation marks or a single
one. -/
def handle (what : String) (start : Mark) (c : Cursor) : Except Fault (String × Cursor) :=
  let doing := "while scanning a " ++ what
  if c.head != '!' then .error (scanFault doing start (unexpected "expected '!'" c.head) c.mark)
  else if c.peek 1 == ' ' then .ok ("!", c.next)
  else
    let found := c.next.run isNameChar
    let after := c.skip (found.length + 1)
    if after.head != '!' then
      .error (scanFault doing start (unexpected "expected '!'" after.head) after.mark)
    else .ok (.ofList ('!' :: found ++ ['!']), after.next)

/-- A type from its exclamation mark on. -/
def tag (c : Cursor) : Except Fault (TokenKind × Cursor) := do
  let start := c.mark
  let (kind, after) ← match c.peek 1 with
    | '<' => do
      let (suffix, after) ← uri "tag" start c.next.next
      if after.head != '>' then
        throw (scanFault "while parsing a tag" start (unexpected "expected '>'" after.head)
          after.mark)
      pure (TokenKind.tag none suffix, after.next)
    | x =>
      if isGap x then pure (TokenKind.tag none "!", c.next)
      else do
        let word := c.next.run fun x => !endsWord x
        let (h, after) ← if word.contains '!' then handle "tag" start c else pure ("!", c.next)
        let (suffix, after) ← uri "tag" start after
        pure (TokenKind.tag (some h) suffix, after)
  if endsWord after.head then return (kind, after)
  else .error (scanFault "while scanning a tag" start (unexpected "expected ' '" after.head)
    after.mark)

end Property

namespace Directive

def doing : String := "while scanning a directive"

/-- A directive's name. -/
def name (start : Mark) (c : Cursor) : Except Fault (String × Cursor) :=
  let found := c.run isNameChar
  let after := c.skip found.length
  if found.isEmpty || !endsWord after.head then
    .error (scanFault doing start
      (unexpected "expected alphabetic or numeric character" after.head) after.mark)
  else .ok (.ofList found, after)

def number (start : Mark) (c : Cursor) : Except Fault (Nat × Cursor) :=
  let digits := c.run fun x => '0' ≤ x && x ≤ '9'
  if digits.isEmpty then
    .error (scanFault doing start (unexpected "expected a digit" c.head) c.mark)
  else .ok (digits.foldl (fun n d => n * 10 + hexDigit d) 0, c.skip digits.length)

/-- A version, such as `1.1`. -/
def versionValue (start : Mark) (c : Cursor) : Except Fault (Directive × Cursor) := do
  let (major, c) ← number start (c.skipWhile (· == ' '))
  if c.head != '.' then
    throw (scanFault doing start (unexpected "expected a digit or '.'" c.head) c.mark)
  let (_, c) ← number start c.next
  if endsWord c.head then return (.version major, c)
  else .error (scanFault doing start (unexpected "expected a digit or ' '" c.head) c.mark)

/-- A short name for the beginning of types. -/
def handleValue (start : Mark) (c : Cursor) : Except Fault (Directive × Cursor) := do
  let (h, c) ← Property.handle "directive" start (c.skipWhile (· == ' '))
  if c.head != ' ' then
    throw (scanFault doing start (unexpected "expected ' '" c.head) c.mark)
  let (begin, c) ← Property.uri "directive" start (c.skipWhile (· == ' '))
  if endsWord c.head then return (.handle h begin, c)
  else .error (scanFault doing start (unexpected "expected ' '" c.head) c.mark)

/-- A directive from its percent sign on, with the place where it ends. -/
def scan (c : Cursor) : Except Fault (Directive × Mark × Cursor) := do
  let start := c.mark
  let (title, c) ← name start c.next
  let (d, stop, c) ← match title with
    | "YAML" => do
      let (d, c) ← versionValue start c
      pure (d, c.mark, c)
    | "TAG" => do
      let (d, c) ← handleValue start c
      pure (d, c.mark, c)
    | _ => pure (.other, c.mark, c.skipWhile fun x => !isBreak x)
  let c ← Block.restOfLine doing start c
  return (d, stop, c)

end Directive

end RustMetrics.Yaml
