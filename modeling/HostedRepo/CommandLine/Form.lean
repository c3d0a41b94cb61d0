/-!
# Forms of command lines

A form says which options and operands a command takes and which subcommands follow. Options are
given by name and may take a value; operands are told apart by their position.
-/

namespace HostedRepo.CommandLine

/-- What a flag may ask for instead of a run. -/
inductive Notice where
  | help
  | version
  deriving DecidableEq, Repr

/-- An option; without a value name it is a flag. -/
structure Opt where
  long : String
  short : Option Char := none
  valueName : Option String := none
  required : Bool := false
  /-- Whether an empty value counts as none. -/
  nonempty : Bool := false
  notice : Option Notice := none
  deriving DecidableEq, Repr

namespace Opt

def isFlag (o : Opt) : Bool := o.valueName.isNone

/-- The option as messages name it. -/
def shown (o : Opt) : String :=
  match o.valueName with
  | none => "--" ++ o.long
  | some v => "--" ++ o.long ++ " <" ++ v ++ ">"

end Opt

/-- An operand. One that is `many` is the last of its form and takes every further argument. -/
structure Operand where
  name : String
  many : Bool := false
  /-- Why a value cannot be read, if it cannot. -/
  fault? : String → Option String := fun _ => none

/-- The operand as messages name it. -/
def Operand.shown (o : Operand) : String :=
  "<" ++ o.name ++ ">" ++ (if o.many then "..." else "")

structure Form where
  options : List Opt
  operands : List Operand := []
  commands : List String := []

namespace Form

def long? (f : Form) (name : String) : Option Opt := f.options.find? (·.long = name)

def short? (f : Form) (letter : Char) : Option Opt := f.options.find? (·.short = some letter)

/-- The operand that comes after a number of values. -/
def operandAt? (f : Form) (n : Nat) : Option Operand :=
  f.operands[n]?.or (f.operands.getLast?.filter (·.many))

end Form
end HostedRepo.CommandLine
