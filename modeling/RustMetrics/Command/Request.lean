import RustMetrics.Command.Usage

/-! From a command line to what it asks for. The events of a line are taken in order;
help, the version and any fault end the run at once. Arguments that no level
knows are collected and refused last, those of the program before those of the
command. -/

namespace RustMetrics.Command

inductive Format where
  | text
  | json
  deriving DecidableEq, Repr

def Format.name : Format → String
  | text => "text"
  | json => "json"

/-- The limit that a command line sets. One that is left blank is still a limit, and
the settings refuse it. -/
inductive Limit where
  | unset
  | blank
  | number (n : Int)
  deriving DecidableEq, Repr

/-- An analysis that is asked for. What is not given is left to the settings. -/
structure Analysis where
  mode : Mode
  path : String
  settings : Option String
  format : Option Format
  output : Option String
  limit : Limit
  verbose : Bool
  deriving DecidableEq, Repr

inductive Request where
  | analyse (a : Analysis)
  | init (force : Bool)
  deriving DecidableEq, Repr

/-- Why a command line asks for nothing: it wanted to know something, or it is
wrong. -/
inductive Stop where
  | shown (text : String)
  | refused (text : String)
  deriving DecidableEq, Repr

def Level.refuse (l : Level) (message : String) : Stop := .refused (l.complaint message)

/-- What the switches and the operand of a command have said so far. -/
structure Answers where
  path : Option String := none
  settings : Option String := none
  format : Option Format := none
  output : Option String := none
  limit : Limit := .unset
  verbose : Bool := false
  force : Bool := false
  extras : List String := []

def choices (names : List String) : String :=
  "(choose from " ++ ", ".intercalate (names.map Text.quoted) ++ ")"

def invalidChoice (title found : String) (names : List String) : String :=
  title ++ ": invalid choice: " ++ Text.quoted found ++ " " ++ choices names

/-- One switch with its value. A later value replaces an earlier one, also if it is
none. -/
def Answers.give (l : Level) (a : Answers) (s : Switch) (value : Option String) :
    Except Stop Answers :=
  match s.flag with
  | .help => .error (.shown l.help)
  | .version => .error (.shown versionText)
  | .settings => .ok { a with settings := value }
  | .output => .ok { a with output := value }
  | .verbose => .ok { a with verbose := true }
  | .force => .ok { a with force := true }
  | .format =>
    match value with
    | none => .ok { a with format := none }
    | some "text" => .ok { a with format := some .text }
    | some "json" => .ok { a with format := some .json }
    | some other => .error (l.refuse (invalidChoice s.title other ["text", "json"]))
  | .limit =>
    match value with
    | none => .ok { a with limit := .blank }
    | some digits =>
      match Text.integer? digits with
      | some n => .ok { a with limit := .number n }
      | none => .error (l.refuse (s.title ++ ": invalid int value: " ++ Text.quoted digits))

def Answers.take (l : Level) (a : Answers) : Event → Except Stop Answers
  | .given s value => a.give l s value
  | .operand first _ => .ok { a with path := some first }
  | .extra arg => .ok { a with extras := a.extras ++ [arg] }
  | .fault message => .error (l.refuse message)

/-- What the arguments of a command say. -/
def answers (l : Level) (args : List String) : Except Stop Answers :=
  (l.events args).foldlM (Answers.take l) {}

/-- A command with its arguments, and those that it does not know. -/
def request (name : String) (args : List String) : Except Stop (Request × List String) :=
  match name with
  | "tree" => analysis .tree args
  | "graph" => analysis .graph args
  | "init" => do
    let a ← answers initLevel args
    return (.init a.force, a.extras)
  | _ => .error (topLevel.refuse (invalidChoice "argument command" name ["tree", "graph", "init"]))
where
  analysis (mode : Mode) (args : List String) : Except Stop (Request × List String) := do
    let a ← answers (analysisLevel mode) args
    match a.path with
    | none =>
      .error ((analysisLevel mode).refuse "the following arguments are required: path")
    | some path =>
      return (.analyse ⟨mode, path, a.settings, a.format, a.output, a.limit, a.verbose⟩, a.extras)

/-- The program's own arguments: leftovers, and the command once it is met. -/
structure Opening where
  extras : List String := []
  command : Option (Request × List String) := none

def Opening.take (o : Opening) : Event → Except Stop Opening
  | .given s value => do
    let _ ← Answers.give topLevel {} s value
    return o
  | .operand name args => do
    let command ← request name args
    return { o with command := some command }
  | .extra arg => .ok { o with extras := o.extras ++ [arg] }
  | .fault message => .error (topLevel.refuse message)

/-- What a command line asks for. Without a command it is the help. -/
def parse (args : List String) : Except Stop Request := do
  let o ← (topLevel.events args).foldlM Opening.take {}
  let leftover := o.extras ++ (o.command.map Prod.snd).getD []
  if !leftover.isEmpty then
    .error (topLevel.refuse ("unrecognized arguments: " ++ " ".intercalate leftover))
  else match o.command with
    | none => .error (.shown topLevel.help)
    | some (r, _) => return r

end RustMetrics.Command
