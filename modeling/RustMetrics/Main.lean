import RustMetrics.Command.Run
import RustMetrics.Disk.Bundle

/-! The program. The files of the run come as one document on standard input; with
nothing there, the directory is empty. What the run writes is not read again by
it, so no parser is needed here. -/

open RustMetrics

/-- Runs the command line, prints what it has to say and writes the files that it
changed. -/
def main (args : List String) : IO UInt32 := do
  let input ← (← IO.getStdin).readToEnd
  let debug := ((← IO.getEnv "DEBUG").getD "") != ""
  let cwd := Path.ofString (toString (← IO.currentDir))
  let before := Bundle.disk .refusing cwd ((Json.parse? input).getD .null)
  let outcome := Command.run debug before args
  for (place, file) in outcome.disk.changesSince before do
    IO.FS.writeBinFile ("/" ++ "/".intercalate place) file.bytes
  IO.print outcome.stdout
  IO.eprint outcome.stderr
  match outcome.exit with
  | .ok code => return code.toUInt32
  | .error _ => return 1
