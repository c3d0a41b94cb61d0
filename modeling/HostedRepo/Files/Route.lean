import HostedRepo.Files.Fault
import HostedRepo.Text.Search
import HostedRepo.Text.Utf8

/-!
# Paths

A path is a text of names between slashes. Empty names count for nothing, `.` is the folder itself
and `..` the one above; a slash at the end asks for a folder. The parent of a path is a beginning
of its text.
-/

namespace HostedRepo.Files

/-- A path, taken apart. -/
structure Route where
  absolute : Bool
  names : List String
  slashed : Bool
  deriving DecidableEq, Repr

namespace Route

/-- How long a path and a name may be, in bytes; a path needs room for one more. -/
def pathLimit : Nat := 4096

def nameLimit : Nat := 255

def tooLong (name : String) : Bool := nameLimit < (Text.Utf8.encode name).length

/-- Takes a path apart. -/
def parse (path : String) : Except Fault Route :=
  if path.toList.contains '\x00' then .error .nulByte
  else if path.isEmpty then .error .notFound
  else if pathLimit ≤ (Text.Utf8.encode path).length then .error .nameTooLong
  else .ok
    { absolute := path.toList.head? == some '/'
      names := ((Text.splitAt '/' path.toList).filter (· ≠ [])).map String.ofList
      slashed := path.toList.getLast? == some '/' }

end Route

/-- How many characters at the front stay whatever is cut off: a slash, or a dot that stands for
the current folder. -/
def anchored : List Char → Nat
  | '/' :: _ => 1
  | ['.'] => 1
  | '.' :: '/' :: _ => 1
  | _ => 0

/-- A path, given backwards, without slashes and dots at its end that count for nothing. -/
def trimEnd (keep : Nat) : List Char → List Char
  | '/' :: rest => if keep ≤ rest.length then trimEnd keep rest else '/' :: rest
  | '.' :: '/' :: rest =>
    if keep ≤ rest.length + 1 then trimEnd keep ('/' :: rest) else '.' :: '/' :: rest
  | path => path

/-- The path of the folder that a path lies in; the empty path is the current folder. The root and
the empty path have none. -/
def parent? (path : String) : Option String :=
  let keep := anchored path.toList
  match trimEnd keep path.toList.reverse with
  | [] => none
  | ['/'] => none
  | backwards =>
    some (String.ofList (trimEnd keep (backwards.dropWhile (· ≠ '/'))).reverse)

end HostedRepo.Files
