import SlotControl.Replay.Snapshot

/-!
The command line of the replay: its arguments, the settings they lead to, and what it prints and
returns.
-/

namespace SlotControl.CommandLine

variable {Seed : Type} [Traversal Seed]

/-- What the arguments ask for. -/
structure Options where
  /-- The file with the scenario. -/
  scenario : Option String
  verbose : Bool
  /-- The timeout of requests, in place of the one from the environment. -/
  requestTimeout : Option Duration
  deriving Inhabited

/-- No argument has been read. -/
def Options.start : Options := ⟨none, false, none⟩

/-- What is wrong with the arguments. -/
inductive UsageFault where
  | unexpected (argument : String)
  | repeated (argument : String)
  | missingValue (argument : String)
  | unwantedValue (argument : String)
  | invalidValue (argument value : String)
  | missingScenario

/-- The text of wrong arguments. -/
def UsageFault.message : UsageFault → String
  | .unexpected argument => s!"unexpected argument '{argument}' found"
  | .repeated argument => s!"the argument '{argument}' cannot be used multiple times"
  | .missingValue argument => s!"a value is required for '{argument}' but none was supplied"
  | .unwantedValue argument => s!"unexpected value for '{argument}' found"
  | .invalidValue argument value => s!"invalid value '{value}' for '{argument}'"
  | .missingScenario => "the following required arguments were not provided: <SCENARIO>"

/-- What the arguments come to. -/
inductive Invocation where
  | replay (scenario : String) (options : Options)
  | help
  | version

/-- The option that turns on detailed logs. -/
def verboseOption : String := "--verbose"

/-- The option that sets the timeout of requests. -/
def timeoutOption : String := "--request-timeout-ms"

/-- The whole is read; the scenario must be there. -/
def Options.finish (options : Options) : Except UsageFault Invocation :=
  match options.scenario with
  | some scenario => .ok (.replay scenario options)
  | none => .error .missingScenario

/-- Takes an argument that is no option. -/
def Options.positional (options : Options) (argument : String) : Except UsageFault Options :=
  if options.scenario.isSome || argument.isEmpty then .error (.unexpected argument)
  else .ok { options with scenario := some argument }

/-- Sets the timeout of requests. -/
def Options.setTimeout (options : Options) (value : String) : Except UsageFault Options :=
  if options.requestTimeout.isSome then .error (.repeated timeoutOption)
  else match Timeouts.ofText? value with
    | some timeout => .ok { options with requestTimeout := some timeout }
    | none => .error (.invalidValue timeoutOption value)

/-- Turns on detailed logs. -/
def Options.setVerbose (options : Options) : Except UsageFault Options :=
  if options.verbose then .error (.repeated verboseOption) else .ok { options with verbose := true }

/-- An argument by its form. -/
inductive Form where
  /-- Two dashes: no options follow. -/
  | endOfOptions
  /-- An option with two dashes, and what follows its first equals sign. -/
  | long (name : String) (value : Option String)
  /-- Options of one letter after one dash. -/
  | short (letters : List Char)
  | plain

/-- The form of an argument. A single dash is a plain argument. -/
def Form.of (argument : String) : Form :=
  match argument.toList with
  | ['-', '-'] => .endOfOptions
  | '-' :: '-' :: rest =>
    let name := "--" ++ String.ofList (rest.takeWhile (· != '='))
    match rest.dropWhile (· != '=') with
    | [] => .long name none
    | _ :: value => .long name (some (String.ofList value))
  | '-' :: c :: rest => .short (c :: rest)
  | _ => .plain

/-- Reads the arguments from left to right; the first fault counts. -/
def parseFrom (options : Options) : List String → Except UsageFault Invocation
  | [] => options.finish
  | argument :: rest =>
    match Form.of argument with
    | .endOfOptions => do (← rest.foldlM Options.positional options).finish
    | .plain => do parseFrom (← options.positional argument) rest
    | .short ('h' :: _) => .ok .help
    | .short ('V' :: _) => .ok .version
    | .short _ => .error (.unexpected argument)
    | .long name value =>
      if name = timeoutOption then
        match value, rest with
        | some value, rest => do parseFrom (← options.setTimeout value) rest
        | none, value :: others =>
          match Form.of value with
          | .plain => do parseFrom (← options.setTimeout value) others
          | _ => .error (.missingValue name)
        | none, [] => .error (.missingValue name)
      else if value.isSome && [verboseOption, "--help", "--version"].contains name then
        .error (.unwantedValue name)
      else if name = verboseOption then do parseFrom (← options.setVerbose) rest
      else if name = "--help" then .ok .help
      else if name = "--version" then .ok .version
      else .error (.unexpected argument)

/-- Reads the arguments. -/
def parse (arguments : List String) : Except UsageFault Invocation := parseFrom .start arguments

/-- The timeouts by the environment and the options. -/
def Options.timeouts (options : Options) (lookUp : String → Option String) : Timeouts :=
  (Timeouts.ofEnvironment lookUp).override options.requestTimeout none

/-- How a replay ends. -/
inductive Ending where
  | printed (text : String)
  /-- Errors, each of which is caused by the next. -/
  | failed (chain : List String)
  | defect (defect : Defect)

/-- Replays the scenario that a text holds. -/
def replay (schedule : Schedule) (timeouts : Timeouts) (content : String) : Ending :=
  match Scenario.parse? content with
  | none => .failed ["Invalid scenario"]
  | some scenario =>
    match Replay.run schedule timeouts scenario with
    | .ok final => .printed final.snapshot.pretty
    | .error (.fault index fault) => .failed [s!"Step {Numeral.text index} failed", fault.message]
    | .error (.defect defect) => .defect defect

/-- The exit code of wrong arguments. -/
def usageExitCode : UInt32 := 2

/-- The exit code of a replay. -/
def Ending.exitCode : Ending → UInt32
  | .printed _ => 0
  | .failed _ => 1
  | .defect _ => 101

/-- The text of a chain of errors: the first one, and the others as its causes. -/
def chainText : List String → String
  | [] => "Error"
  | [error] => "Error: " ++ error
  | [error, cause] => "Error: " ++ error ++ "\n\nCaused by:\n    " ++ cause
  | error :: causes =>
    let lines := causes.mapIdx fun i cause => s!"\n    {Numeral.text i}: {cause}"
    "Error: " ++ error ++ "\n\nCaused by:" ++ String.join lines

end SlotControl.CommandLine
