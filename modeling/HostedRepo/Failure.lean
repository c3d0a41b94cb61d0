import HostedRepo.Command.Check
import HostedRepo.Config.Format
import HostedRepo.Files.Fault
import HostedRepo.Remote.Error
import HostedRepo.Remote.Plan

/-!
# Failures

Why a command, or a part of one, failed: a cause, within the activities that it ended.
-/

namespace HostedRepo

/-- What was going on when something failed. -/
inductive Activity where
  | fetch (path : String) (repo : RepoName)
  | archive (repo : RepoName)
  | lookUp (path : String) (repo : RepoName)
  | push (repo : RepoName) (branch : String)
  | deleteFolders (repo : RepoName)
  | makeFolder (path : String)
  | write (path : String)
  | read (path : String)
  | readConfig (path : String)
  | parseConfig (path : String)
  | makeClient
  deriving DecidableEq, Repr

def Activity.message : Activity → String
  | .fetch path r => "Failed to fetch " ++ path ++ " from " ++ r.text
  | .archive r => "Failed to download archive of " ++ r.text
  | .lookUp path r => "Failed to look up " ++ path ++ " in " ++ r.text
  | .push r branch => "Failed to push to " ++ r.text ++ " on branch " ++ branch
  | .deleteFolders r => "Failed to delete folders in " ++ r.text
  | .makeFolder path => "Failed to create directory " ++ path
  | .write path => "Failed to write " ++ path
  | .read path => "Failed to read " ++ path
  | .readConfig path => "Failed to read config file " ++ path
  | .parseConfig path => "Failed to parse config file " ++ path
  | .makeClient => "Failed to create GitHub client"

inductive Failure where
  | rejected (r : Rejection)
  | mapping (text : String)
  | repeatedPath (path : String)
  | config (d : Config.Defect)
  | format (e : Config.FormatError)
  | file (f : Files.Fault)
  | remote (e : RemoteError)
  | during (a : Activity) (cause : Failure)
  deriving DecidableEq, Repr

namespace Failure

def message : Failure → String
  | .rejected r => r.message
  | .mapping text => "Invalid file mapping '" ++ text ++ "': expected LOCAL=REMOTE or PATH"
  | .repeatedPath path => "Repository path '" ++ path ++ "' is given more than once"
  | .config d => d.message
  | .format e => e.message
  | .file f => f.message
  | .remote e => e.message
  | .during a _ => a.message

/-- The messages below the first one. -/
def causes : Failure → List String
  | .during _ cause => cause.message :: cause.causes
  | .remote e => e.causes
  | _ => []

/-- The innermost cause. -/
def root : Failure → Failure
  | .during _ cause => cause.root
  | f => f

end Failure

end HostedRepo
