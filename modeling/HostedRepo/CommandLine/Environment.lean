import HostedRepo.Text.Utf8

/-!
# The environment of a run

Environment variables hold bytes; one whose bytes are no text counts as not set.
-/

namespace HostedRepo.CommandLine

abbrev Environment := String → Option Bytes

namespace Environment

/-- The text of a variable. -/
def text? (env : Environment) (name : String) : Option String :=
  (env name).bind Text.Utf8.decode?

/-- What a switch says; everything but a zero means yes. -/
def switch? (env : Environment) (name : String) : Option Bool :=
  (env.text? name).map (· ≠ "0")

/-- Whether output is in colour: by force, or else on a terminal unless a variable is against it. -/
def usesColor (env : Environment) (onTerminal : Bool) : Bool :=
  if env.switch? "CLICOLOR_FORCE" = some true then true
  else if (env.text? "NO_COLOR").isSome then false
  else (env.switch? "CLICOLOR").getD true && onTerminal

/-- The variable that may hold a log filter. -/
def filterVariable : String := "RUST_LOG"

/-- The variables that a run looks at. -/
def variableNames : List String :=
  ["GITHUB_TOKEN", filterVariable, "CLICOLOR_FORCE", "NO_COLOR", "CLICOLOR"]

end Environment
end HostedRepo.CommandLine
