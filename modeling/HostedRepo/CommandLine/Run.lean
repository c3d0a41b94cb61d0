import HostedRepo.CommandLine.Environment
import HostedRepo.CommandLine.Invocation
import HostedRepo.Log.Filter

/-!
# Runs of the program

A run reads its arguments, loads the configuration, makes a client and executes one command. It
ends with an exit code: 0 for success, 1 for a failure and 2 for arguments that cannot be read.
-/

namespace HostedRepo

/-- A text whose further lines are set in. -/
def indented (margin text : String) : String :=
  ("\n" ++ margin).intercalate
    ((Text.splitAt '\n' text.toList).map String.ofList)

/-- A number at the right of five columns, as far as it fits. -/
def rightAligned (n : Nat) : String :=
  let digits := toString n
  String.ofList (List.replicate (5 - digits.length) ' ') ++ digits

/-- The causes of a failure as lines; several are numbered. -/
def causeLines : List String → List String
  | [] => []
  | [cause] => ["", "Caused by:", "    " ++ indented "    " cause]
  | causes => "" :: "Caused by:" :: causes.mapIdx fun i cause =>
      rightAligned i ++ ": " ++ indented "       " cause

/-- What is printed about a failure. -/
def Failure.lines (f : Failure) : List String :=
  ("Error: " ++ f.message) :: causeLines f.causes

namespace CommandLine

/-- How a run has ended. -/
structure Exit where
  code : Nat
  world : World

/-- The event that tells what the configuration says. -/
def configured (c : Config) : Log.Event :=
  ⟨.debug, .program, "loaded configuration",
    [("api_base", c.apiBase), ("authenticated", Log.flag c.token.isSome)]⟩

def helpLines : List String :=
  [about, "", "Usage: " ++ programName ++ " [OPTIONS] <COMMAND>", "",
    "Commands: " ++ ", ".intercalate commandNames]

/-- Prints lines to the error output. -/
def printErrors (lines : List String) (w : World) : World :=
  { w with console := lines.foldl (fun con l => con.printErrorLine l) w.console }

def printAll (lines : List String) (w : World) : World :=
  { w with console := lines.foldl (fun con l => con.printLine l) w.console }

/-- The exit of a run without an invocation. -/
def exitEarly (w : World) : Ending → Exit
  | .fault f => ⟨2, printErrors f.lines w⟩
  | .bare => ⟨2, printErrors helpLines w⟩
  | .notice .help => ⟨0, printAll helpLines w⟩
  | .notice .version => ⟨0, printAll [programName ++ " " ++ versionText] w⟩

/-- The configuration of an invocation, with the events on the way. -/
def configuration (env : Environment) (i : Invocation) (w : World) :
    List Log.Event × Except Failure Config :=
  let (events, config) := Config.resolve w.disk i.configFile i.token (env Config.tokenVariable)
  match config with
  | .ok c => (events ++ [configured c], .ok c)
  | .error f => (events, .error f)

/-- Executes the command of an invocation. -/
def perform (env : Environment) (i : Invocation) : Action Unit := fun w =>
  let (events, config) := configuration env i w
  let w := { w with wire := events.foldl (fun wire e => wire.report e) w.wire }
  (do
    let c ← Action.of config
    let client ← Action.of c.client
    i.command.execute client : Action Unit).run w

/-- The lines of the events that a filter passes. -/
def logText (filter : Log.Filter) (events : List Log.Event) : String :=
  String.join ((events.filter filter.passes).map fun e => e.line ++ "\n")

/-- The exit of an invocation. On the error output the log stands before what the command prints,
and a failure comes last. -/
def exit (env : Environment) (i : Invocation) (w : World) : Exit :=
  let filter := Log.Filter.select i.verbose (env.text? Environment.filterVariable)
  let (result, w) := (perform env i).run w
  let logged := Text.Utf8.encode (logText filter w.wire.log) ++ w.console.err
  let w := { w with console := { w.console with err := logged } }
  match result with
  | .ok () => ⟨0, w⟩
  | .error f => ⟨1, printErrors f.lines w⟩

/-- Runs the program with arguments. -/
def run (env : Environment) (arguments : List String) (onTerminal : Bool) (disk : Files.Disk)
    (wire : Http.Wire) : Exit :=
  let w : World :=
    { disk := disk, wire := wire, console := { color := env.usesColor onTerminal } }
  match Invocation.ofArguments arguments with
  | .error e => exitEarly w e
  | .ok i => exit env i w

end CommandLine
end HostedRepo
