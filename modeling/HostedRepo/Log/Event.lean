/-!
# Log events

What the library reports while it works: a level, the component that reports, a message and named
values.
-/

namespace HostedRepo.Log

inductive Level where
  | error
  | warn
  | info
  | debug
  | trace
  deriving DecidableEq, Repr

/-- How many levels are at least as severe. -/
def Level.rank : Level → Nat
  | .error => 1
  | .warn => 2
  | .info => 3
  | .debug => 4
  | .trace => 5

/-- The name of a level in a filter. -/
def Level.word : Level → String
  | .error => "error"
  | .warn => "warn"
  | .info => "info"
  | .debug => "debug"
  | .trace => "trace"

/-- The name of a level in a log line. -/
def Level.name : Level → String
  | .error => "ERROR"
  | .warn => "WARN"
  | .info => "INFO"
  | .debug => "DEBUG"
  | .trace => "TRACE"

/-- The components that report events. -/
inductive Source where
  | program
  | configuration
  | operations
  | gitObjects
  | contents
  deriving DecidableEq, Repr

/-- The names by which filters know the components. -/
def Source.target : Source → String
  | .program => "ghrepo"
  | .configuration => "ghrepo::config::loader"
  | .operations => "ghrepo_github::adapter"
  | .gitObjects => "ghrepo_github::git"
  | .contents => "ghrepo_github::repositories"

structure Event where
  level : Level
  source : Source
  message : String
  fields : List (String × String) := []
  deriving DecidableEq, Repr

/-- The event as one line, without a time. -/
def Event.line (e : Event) : String :=
  " ".intercalate (e.level.name :: e.message :: e.fields.map fun (k, v) => k ++ "=" ++ v)

/-- The text of a truth value in a log line. -/
def flag (b : Bool) : String := if b then "true" else "false"

end HostedRepo.Log
