import HostedRepo.Failure
import HostedRepo.Files.Disk
import HostedRepo.Log.Event

/-!
# Loading a configuration

A configuration comes from a file, if there is one, and the token from the first of three places
that has one: the command line, the file and the environment.
-/

namespace HostedRepo.Config

/-- The environment variable that may hold a token. -/
def tokenVariable : String := "GITHUB_TOKEN"

/-- The file that is read unless another one is named. -/
def defaultFile : String := "ghrepo.yaml"

/-- The text of a configuration file. -/
def fileText (d : Files.Disk) (path : String) : Except Files.Fault String := do
  let bytes ← d.read path
  match Text.Utf8.decode? bytes with
  | some s => return s
  | none => throw .notText

/-- Loads a configuration from a file. A blank file holds the defaults. -/
def load (d : Files.Disk) (path : String) : Except Failure Config := do
  let text ← (fileText d path).mapError fun f => .during (.readConfig path) (.file f)
  let c ← if Text.allBlank text then pure {} else
    (ofText text).mapError fun e => .during (.parseConfig path) (.format e)
  c.validate.mapError .config
  return c

/-- The token of the environment, if it is a text that is not blank. -/
def environmentToken (value : Option Bytes) : Option String :=
  (value.bind Text.Utf8.decode?).filter (!Text.allBlank ·)

/-- The configuration with its token: the given one, or its own, or that of the environment. -/
def resolveToken (given : Option String) (environment : Option Bytes) (c : Config) : Config :=
  { c with token := (given.or c.token).or (environmentToken environment) }

/-- What is reported when there is no file. -/
def noFile (path : String) : Log.Event :=
  ⟨.debug, .configuration, "config file not found, using defaults", [("path", path)]⟩

/-- The configuration of a run, with the events on the way. -/
def resolve (d : Files.Disk) (path : String) (given : Option String)
    (environment : Option Bytes) : List Log.Event × Except Failure Config :=
  if d.isThere path then ([], (load d path).map (resolveToken given environment))
  else ([noFile path], .ok (resolveToken given environment {}))

/-- Makes the client of a configuration. -/
def client (c : Config) : Except Failure Client :=
  (Client.build c.settings).mapError fun e => .during .makeClient (.remote e)

end HostedRepo.Config
