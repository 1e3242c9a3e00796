import RustMetrics.Disk.Basic

/-! Settings from a file. Its extension decides which loader reads it; an empty
YAML document gives the defaults, an empty JSON document is refused. -/

namespace RustMetrics

namespace File

/-- The value of a settings file. -/
def value (f : File) (path : Path) : Except Failure Value := do
  let _ ← decoded f.bytes.toList
  if Text.lower path.suffix = ".json" then
    return (← f.json).tidy
  else
    let v ← f.yaml
    return if v.isEmpty then .map [] else v.tidy

end File

/-- The settings that a path names. Without a path they are the defaults. -/
def Disk.settings (d : Disk) : Option String → Except Failure Settings
  | none => .ok .defaults
  | some "" => .ok .defaults
  | some name => do
    let path := Path.ofString name
    match ← d.find path with
    | none => .error (.noSettingsFile name)
    | some .dir => .error (.isDirectory path.toString)
    | some (.file f) => f.value path >>= Settings.ofValue

end RustMetrics
