import RustMetrics.Text.Digit

/-! Switches on a command line, and how an argument is told from a switch. A long
name may be cut short as long as only one name fits. A short name may be joined
with a value or with more short names. Everything after the first `--` is an
argument, and so are negative numbers and whatever has a blank in it and names no
switch. -/

namespace RustMetrics.Command

inductive Flag where
  | help
  | version
  | settings
  | format
  | output
  | limit
  | verbose
  | force
  deriving DecidableEq, Repr

structure Switch where
  flag : Flag
  names : List String
  takesValue : Bool
  deriving DecidableEq, Repr

/-- What messages call a switch. -/
def Switch.title (s : Switch) : String := "argument " ++ "/".intercalate s.names

/-- What stands in the same argument after the name of a switch: nothing, or some
text, which may be empty if an equals sign sets it off. -/
inductive Attached where
  | nothing
  | chars (cs : List Char)
  deriving DecidableEq, Repr

/-- What an argument turns out to be. -/
inductive Role where
  | argument
  | dashes
  | switch (s : Switch) (isShort : Bool) (attached : Attached)
  | unknown
  deriving DecidableEq, Repr

structure Token where
  text : String
  role : Role
  deriving DecidableEq, Repr

/-- All names, each with its switch. -/
def spellings (switches : List Switch) : List (String × Switch) :=
  switches.flatMap fun s => s.names.map (·, s)

/-- The switch of an exact name. -/
def named? (switches : List Switch) (name : String) : Option Switch :=
  (spellings switches).lookup name

/-- The part before the first equals sign. -/
def beforeEquals (cs : List Char) : List Char := cs.takeWhile (· != '=')

/-- What the first equals sign sets off, if there is one. -/
def afterEquals (cs : List Char) : Attached :=
  match cs.dropWhile (· != '=') with
  | [] => .nothing
  | _ :: value => .chars value

/-- The names that an argument can mean, each with its reading. -/
def readings (switches : List Switch) : List Char → List (String × Role)
  | '-' :: '-' :: cs =>
    let name := beforeEquals ('-' :: '-' :: cs)
    ((spellings switches).filter fun x => name.isPrefixOf x.1.toList).map fun x =>
      (x.1, .switch x.2 false (afterEquals cs))
  | '-' :: c :: cs =>
    ((spellings switches).filter fun x => x.1.toList == ['-', c]).map fun x =>
      (x.1, .switch x.2 true (.chars cs))
  | _ => []

/-- A line feed at the end does not count. -/
def withoutLastFeed (cs : List Char) : List Char :=
  if cs.getLast? = some '\n' then cs.dropLast else cs

/-- Whether what follows a minus sign makes a number. -/
def isNumber (cs : List Char) : Bool :=
  match (withoutLastFeed cs).dropWhile Text.isDigit with
  | [] => !(withoutLastFeed cs).isEmpty
  | '.' :: places => !places.isEmpty && places.all Text.isDigit
  | _ => false

/-- An argument that starts with a dash and is no exact name. -/
def guess (switches : List Switch) (text : String) (afterDash : List Char) :
    Except String Role :=
  match readings switches text.toList with
  | [(_, role)] => .ok role
  | [] =>
    if isNumber afterDash || afterDash.contains ' ' then .ok .argument else .ok .unknown
  | many =>
    .error ("ambiguous option: " ++ text ++ " could match " ++ ", ".intercalate (many.map (·.1)))

/-- What one argument is. -/
def roleOf (switches : List Switch) (text : String) : Except String Role :=
  match text.toList with
  | '-' :: c :: cs =>
    match named? switches text with
    | some s => .ok (.switch s (c != '-') .nothing)
    | none =>
      match afterEquals ('-' :: c :: cs), named? switches (.ofList (beforeEquals ('-' :: c :: cs))) with
      | .chars value, some s => .ok (.switch s (c != '-') (.chars value))
      | _, _ => guess switches text (c :: cs)
  | _ => .ok .argument

/-- What each argument is, or what is wrong with the first that can mean two
things. -/
def tokens (switches : List Switch) : List String → Except String (List Token)
  | [] => .ok []
  | text :: rest =>
    if text = "--" then .ok (⟨text, .dashes⟩ :: rest.map (⟨·, .argument⟩))
    else do
      let role ← roleOf switches text
      let more ← tokens switches rest
      return ⟨text, role⟩ :: more

end RustMetrics.Command
