import HostedRepo.Text.Blank
import HostedRepo.Text.Search

/-!
# Checks of command arguments

What is asked of the arguments of a command before anything is sent.
-/

namespace HostedRepo

/-- Why an argument is not accepted. -/
inductive Rejection where
  | unfit (argument value reason : String)
  | nothing (argument : String)
  deriving DecidableEq, Repr

def Rejection.message : Rejection → String
  | .unfit argument value reason =>
    "Invalid value '" ++ value ++ "' for " ++ argument ++ ": " ++ reason
  | .nothing argument => argument ++ " cannot be empty"

namespace Check

/-- Accepts a value on a condition. -/
def require (ok : Bool) (argument value reason : String) : Except Rejection Unit :=
  if ok then .ok () else .error (.unfit argument value reason)

/-- An owner or a repository is one segment of a path and not blank. -/
def segment (argument value : String) : Except Rejection Unit := do
  require (!Text.allBlank value) argument value "cannot be empty or whitespace only"
  require (!value.toList.contains '/') argument value "must not contain '/'"

/-- Whether a name that is not blank can be a branch. -/
def isBranchForm (s : List Char) : Bool :=
  s.head? ≠ some '-' && s.getLast? ≠ some '.' && s.getLast? ≠ some '/' &&
    !Text.occurs ['.', '.'] s && !s.contains ' '

def branch (name : String) : Except Rejection Unit := do
  require (!Text.allBlank name) "branch" name "branch name cannot be empty or whitespace only"
  require (isBranchForm name.toList) "branch" name "invalid Git branch name format"

def message (text : String) : Except Rejection Unit :=
  require (!Text.allBlank text) "commit message" text
    "commit message cannot be empty or whitespace only"

/-- A folder is not blank, and no slash stands at either end of it. -/
def folder (path : String) : Except Rejection Unit := do
  require (!Text.allBlank path) "folder" path "folder cannot be empty"
  require (path.toList.head? ≠ some '/' && path.toList.getLast? ≠ some '/') "folder" path
    "folder must be relative to the repository root without a trailing '/'"

/-- A list of folders has at least one. -/
def folders (paths : List String) : Except Rejection Unit :=
  if paths.isEmpty then .error (.nothing "folder list") else paths.forM folder

/-- A list of files has at least one. -/
def files {α : Type} (mappings : List α) : Except Rejection Unit :=
  if mappings.isEmpty then .error (.nothing "file list") else .ok ()

end Check
end HostedRepo
