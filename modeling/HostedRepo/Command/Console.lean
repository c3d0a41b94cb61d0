import HostedRepo.Text.Utf8

/-!
# What commands print

Texts for the two output streams, some of them in colour. Printing never fails.
-/

namespace HostedRepo

/-- How a text stands out. -/
inductive Emphasis where
  | bold
  | green
  | boldCyan
  deriving DecidableEq, Repr

def Emphasis.code : Emphasis → String
  | .bold => "1"
  | .green => "32"
  | .boldCyan => "1;36"

/-- The text between the sequences that start and end an emphasis. -/
def emphasized (color : Bool) (e : Emphasis) (s : String) : String :=
  if color then "\x1b[" ++ e.code ++ "m" ++ s ++ "\x1b[0m" else s

/-- What has been printed. -/
structure Console where
  color : Bool := false
  out : Bytes := []
  err : Bytes := []
  deriving DecidableEq, Repr

namespace Console

def print (bytes : Bytes) (c : Console) : Console := { c with out := c.out ++ bytes }

def printLine (s : String) (c : Console) : Console :=
  c.print (Text.Utf8.encode (s ++ "\n"))

def printErrorLine (s : String) (c : Console) : Console :=
  { c with err := c.err ++ Text.Utf8.encode (s ++ "\n") }

end Console
end HostedRepo
