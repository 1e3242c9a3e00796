import RustMetrics.Command.Switch
import RustMetrics.Text.Quoted

/-! What a command line says, in order: switches with their values, the operand, what
is left over, and the first fault. Nothing follows a fault. Joined short switches
take effect together, once the last of them has been read. -/

namespace RustMetrics.Command

/-- What a command line takes besides switches: nothing, a path, or a command with
all that follows it. -/
inductive Operand where
  | nothing
  | path
  | command
  deriving DecidableEq, Repr

/-- One thing that a command line says. A switch that takes a value can still be given
none. -/
inductive Event where
  | given (s : Switch) (value : Option String)
  | operand (first : String) (rest : List String)
  | extra (arg : String)
  | fault (message : String)
  deriving DecidableEq, Repr

/-- What joined switches come to. -/
inductive Chain where
  | finished (events : List Event)
  | wanting (events : List Event) (s : Switch)
  | refused (message : String)

namespace Chain

def after (e : Event) : Chain → Chain
  | finished events => finished (e :: events)
  | wanting events s => wanting (e :: events) s
  | refused message => refused message

/-- A switch with nothing attached. -/
def bare (s : Switch) : Chain :=
  if s.takesValue then wanting [] s else finished [.given s none]

/-- A switch that cannot use what is attached to it. -/
def ignoring (s : Switch) (cs : List Char) : Chain :=
  refused (s.title ++ ": ignored explicit argument " ++ Text.quoted (.ofList cs))

/-- An attached value, as it stands. Two dashes stand for none, as they would as an argument
of their own. -/
def value? : List Char → Option String
  | ['-', '-'] => none
  | cs => some (.ofList cs)

/-- A switch with something attached: its value, or the short names joined to it. Behind
joined names an equals sign is a part of the value. -/
def attached (switches : List Switch) (s : Switch) (isShort : Bool) : List Char → Chain
  | [] => if s.takesValue then finished [.given s (some "")] else ignoring s []
  | c :: cs =>
    if s.takesValue then finished [.given s (value? (c :: cs))]
    else if !isShort then ignoring s (c :: cs)
    else match named? switches (.ofList ['-', c]) with
      | none => ignoring s (c :: cs)
      | some next =>
        match cs with
        | [] => (bare next).after (.given s none)
        | d :: ds => (attached switches next true (d :: ds)).after (.given s none)

def ofSwitch (switches : List Switch) (s : Switch) (isShort : Bool) : Attached → Chain
  | .nothing => bare s
  | .chars cs => attached switches s isShort cs

end Chain

def texts (ts : List Token) : List String := ts.map Token.text

/-- What some tokens say while an operand is awaited. After the dashes there are only
arguments. -/
def events (switches : List Switch) (awaited : Operand) : List Token → List Event
  | [] => []
  | ⟨text, .unknown⟩ :: ts => .extra text :: events switches awaited ts
  | ⟨_, .switch s isShort given⟩ :: ts =>
    match Chain.ofSwitch switches s isShort given with
    | .refused message => [.fault message]
    | .finished es => es ++ events switches awaited ts
    | .wanting es last =>
      match ts with
      | ⟨value, .argument⟩ :: ts => es ++ .given last (some value) :: events switches awaited ts
      | _ => [.fault (last.title ++ ": expected one argument")]
  | ⟨text, .argument⟩ :: ts =>
    match awaited with
    | .nothing => .extra text :: events switches awaited ts
    | .command => [.operand text (texts ts)]
    | .path =>
      .operand text [] :: match ts with
        | ⟨_, .dashes⟩ :: ts => events switches .nothing ts
        | ts => events switches .nothing ts
  | ⟨text, .dashes⟩ :: [] => [.extra text]
  | ⟨text, .dashes⟩ :: first :: ts =>
    match awaited with
    | .nothing => .extra text :: events switches .nothing (first :: ts)
    | .command => [.operand text (first.text :: texts ts)]
    | .path => .operand first.text [] :: events switches .nothing ts

end RustMetrics.Command
