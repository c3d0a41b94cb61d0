import HostedRepo.CommandLine.Form

/-!
# Faults of usage

Why arguments cannot be read, with the lines that tell it.
-/

namespace HostedRepo.CommandLine

/-- What is wrong with arguments. Options and operands stand here as messages name them. -/
inductive UsageFault where
  | unexpected (argument : String)
  | unexpectedValue (value option : String)
  | noValue (option : String)
  | repeated (option : String)
  | unfit (value operand reason : String)
  | missing (arguments : List String)
  | unknownCommand (name : String)
  | noCommand (program : String) (commands : List String)
  deriving DecidableEq, Repr

def UsageFault.lines : UsageFault → List String
  | .unexpected argument => ["error: unexpected argument '" ++ argument ++ "' found"]
  | .unexpectedValue value option =>
    ["error: unexpected value '" ++ value ++ "' for '" ++ option ++
      "' found; no more were expected"]
  | .noValue option =>
    ["error: a value is required for '" ++ option ++ "' but none was supplied"]
  | .repeated option =>
    ["error: the argument '" ++ option ++ "' cannot be used multiple times"]
  | .unfit value operand reason =>
    ["error: invalid value '" ++ value ++ "' for '" ++ operand ++ "': " ++ reason]
  | .missing arguments =>
    "error: the following required arguments were not provided:" ::
      arguments.map fun a => "  " ++ a
  | .unknownCommand name => ["error: unrecognized subcommand '" ++ name ++ "'"]
  | .noCommand program commands =>
    ["error: '" ++ program ++ "' requires a subcommand but one was not provided",
      "  [subcommands: " ++ ", ".intercalate commands ++ "]"]

/-- How reading ends without an invocation. -/
inductive Ending where
  | fault (f : UsageFault)
  | notice (n : Notice)
  /-- There was no argument at all. -/
  | bare
  deriving DecidableEq, Repr

end HostedRepo.CommandLine
