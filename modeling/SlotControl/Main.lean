import SlotControl.Replay.CommandLine

/-!
The program: it replays the scenario of a file and prints what came of it.
-/

open SlotControl

/-- How the program is called. -/
def usage : String :=
  "Usage: slotman-replay [OPTIONS] <SCENARIO>\n\n" ++
    "Arguments:\n  <SCENARIO>  Path to a JSON file with the scenario\n\n" ++
    "Options:\n      --verbose                                  Enables debug logging\n" ++
    "      --request-timeout-ms <REQUEST_TIMEOUT_MS>  Base timeout of slot requests\n" ++
    "  -h, --help                                 Print help\n" ++
    "  -V, --version                              Print version"

/-- The text of an error of the file system. -/
def ioText : IO.Error → String
  | .noFileOrDirectory .. => "No such file or directory (os error 2)"
  | .permissionDenied .. => "Permission denied (os error 13)"
  | error => toString error

/-- The variables of the environment that the program reads. -/
def environment : IO (String → Option String) := do
  let names := [Timeouts.requestVariable, Timeouts.freeInactiveVariable]
  let values ← names.mapM fun name => IO.getEnv name
  return fun name => ((names.zip values).lookup name).join

/-- Random ids: a random start, and one more for each. -/
def randomIds : IO (Nat → AllocationId) := do
  let mut base := 0
  for _ in [0:8] do
    base := base * 65536 + (← IO.rand 0 65535)
  return fun n => .ofNat (base + n)

/-- Prints an ending and gives its exit code. -/
def conclude (ending : CommandLine.Ending) : IO UInt32 := do
  match ending with
  | .printed text => IO.println text
  | .failed chain => IO.eprintln (CommandLine.chainText chain)
  | .defect defect => IO.eprintln defect.message
  return ending.exitCode

def main (arguments : List String) : IO UInt32 := do
  match CommandLine.parse arguments with
  | .error fault =>
    IO.eprintln s!"error: {fault.message}\n\nFor more information, try '--help'."
    return CommandLine.usageExitCode
  | .ok .help =>
    IO.println s!"Replays a slot allocation scenario\n\n{usage}"
    return 0
  | .ok .version =>
    IO.println "slotman 0.1.0"
    return 0
  | .ok (.replay scenario options) =>
    let timeouts := options.timeouts (← environment)
    match ← (IO.FS.readFile scenario).toBaseIO with
    | .error error => conclude (.failed [s!"Cannot read scenario {scenario}", ioText error])
    | .ok content => conclude (CommandLine.replay (← randomIds) timeouts content)
