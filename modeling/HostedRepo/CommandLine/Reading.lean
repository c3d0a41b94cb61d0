import HostedRepo.CommandLine.Usage
import HostedRepo.Text.Search

/-!
# Reading arguments

Arguments are read from left to right. The value of an option and the values of an operand are held
back and checked when the next argument that is no part of them comes, or at the end.
-/

namespace HostedRepo.CommandLine

/-- An argument by the way it is written. -/
inductive Written where
  /-- Two dashes, after which everything is an operand. -/
  | terminator
  | long (name : String) (value : Option String)
  /-- Letters after one dash. -/
  | short (letters : List Char)
  | plain
  deriving DecidableEq, Repr

def Written.ofString (argument : String) : Written :=
  match argument.toList with
  | ['-'] => .plain
  | ['-', '-'] => .terminator
  | '-' :: '-' :: s =>
    match Text.splitOnce '=' s with
    | none => .long (String.ofList s) none
    | some (name, value) => .long (String.ofList name) (some (String.ofList value))
  | '-' :: letters => .short letters
  | _ => .plain

/-- What has been given: options by their long names, flags with an empty value, and operands. -/
structure Given where
  options : List (String × String) := []
  operands : List String := []
  deriving DecidableEq, Repr

namespace Given

def value? (g : Given) (long : String) : Option String := g.options.lookup long

def isSet (g : Given) (long : String) : Bool := (g.value? long).isSome

/-- The required arguments of a form that were not given, options first. -/
def missing (f : Form) (g : Given) : List String :=
  (f.options.filter fun o => o.required && !g.isSet o.long).map Opt.shown ++
    (f.operands.drop g.operands.length).map Operand.shown

/-- Adds an option with its value. -/
def put (o : Opt) (value : String) (g : Given) : Except UsageFault Given :=
  if g.isSet o.long then .error (.repeated o.shown)
  else if o.nonempty && value.isEmpty then .error (.noValue o.shown)
  else .ok { g with options := (o.long, value) :: g.options }

/-- Adds values of an operand. -/
def add (o : Operand) (values : List String) (g : Given) : Except UsageFault Given := do
  values.forM fun v =>
    match o.fault? v with
    | none => .ok ()
    | some reason => .error (.unfit v o.shown reason)
  return { g with operands := g.operands ++ values }

end Given

/-- What is held back. -/
inductive Held where
  | nothing
  | option (o : Opt) (value : Option String)
  | operand (o : Operand) (values : List String)

structure Progress where
  given : Given := {}
  held : Held := .nothing
  /-- Whether only operands follow. -/
  terminated : Bool := false

namespace Progress

/-- The option whose value comes next. -/
def waiting? (p : Progress) : Option Opt :=
  match p.held with
  | .option o none => some o
  | _ => none

/-- Adds what is held back to what has been given. -/
def settled (p : Progress) : Except UsageFault Given :=
  match p.held with
  | .nothing => .ok p.given
  | .option o none => .error (.noValue o.shown)
  | .option o (some value) => p.given.put o value
  | .operand o values => p.given.add o values

/-- How many operands there are, those held back included. -/
def operandCount (p : Progress) : Nat :=
  p.given.operands.length +
    match p.held with
    | .operand _ values => values.length
    | _ => 0

/-- Sets a flag, or an option whose value is part of the same argument. -/
def set (o : Opt) (value : String) (p : Progress) : Except Ending Progress := do
  let given ← p.settled.mapError .fault
  match o.notice with
  | some n => throw (.notice n)
  | none =>
    let given ← (given.put o value).mapError .fault
    return { p with given := given, held := .nothing }

/-- Waits for the value of an option. -/
def expect (o : Opt) (p : Progress) : Except Ending Progress := do
  let given ← p.settled.mapError .fault
  return { p with given := given, held := .option o none }

/-- Takes a value of an operand. -/
def take (o : Operand) (value : String) (p : Progress) : Except Ending Progress :=
  match p.held with
  | .operand held values =>
    if held.many then .ok { p with held := .operand held (values ++ [value]) }
    else next
  | _ => next
where
  next : Except Ending Progress := do
    let given ← p.settled.mapError .fault
    return { p with given := given, held := .operand o [value] }

end Progress

namespace Form

/-- Reads an option by its long name. -/
def readLong (f : Form) (name : String) (value : Option String) (p : Progress) :
    Except Ending Progress :=
  match f.long? name with
  | none => .error (.fault (.unexpected ("--" ++ name)))
  | some o =>
    match o.isFlag, value with
    | true, none => p.set o ""
    | true, some v => .error (.fault (.unexpectedValue v o.shown))
    | false, some v => p.set o v
    | false, none => p.expect o

/-- Reads letters: flags, and at the end perhaps an option, whose value may follow it at once or
after an equals sign. -/
def readShort (f : Form) : List Char → Progress → Except Ending Progress
  | [], p => .ok p
  | c :: rest, p =>
    match f.short? c with
    | none => .error (.fault (.unexpected (String.ofList ['-', c])))
    | some o =>
      if o.isFlag then do
        let p ← p.set o ""
        f.readShort rest p
      else match rest with
        | [] => p.expect o
        | '=' :: value => p.set o (String.ofList value)
        | value => p.set o (String.ofList value)

/-- The fault of an argument for which there is no operand. -/
def surplus (f : Form) (terminated : Bool) (argument : String) : UsageFault :=
  if f.commands.isEmpty || (terminated && f.commands.contains argument) then
    .unexpected argument
  else .unknownCommand argument

def readOperand (f : Form) (argument : String) (p : Progress) : Except Ending Progress :=
  match f.operandAt? p.operandCount with
  | none => .error (.fault (f.surplus p.terminated argument))
  | some o => p.take o argument

/-- Reads one argument. -/
def readArgument (f : Form) (argument : String) (p : Progress) : Except Ending Progress :=
  if p.terminated then f.readOperand argument p
  else match Written.ofString argument with
    | .terminator => .ok { p with terminated := true }
    | .long name value => f.readLong name value p
    | .short letters => f.readShort letters p
    | .plain =>
      match p.waiting? with
      | some o => .ok { p with held := .option o (some argument) }
      | none => f.readOperand argument p

/-- Whether an argument is the name of a subcommand. -/
def startsCommand (f : Form) (argument : String) (p : Progress) : Bool :=
  !p.terminated && p.waiting?.isNone && f.commands.contains argument

/-- Reads arguments up to a subcommand, which is returned with its own arguments. -/
def read (f : Form) : List String → Progress →
    Except Ending (Progress × Option (String × List String))
  | [], p => .ok (p, none)
  | a :: rest, p =>
    if f.startsCommand a p then .ok (p, some (a, rest))
    else do
      let p ← f.readArgument a p
      f.read rest p

/-- Reads all arguments of a form without subcommands. -/
def readAll (f : Form) (arguments : List String) : Except Ending Given := do
  let (p, _) ← f.read arguments {}
  let given ← p.settled.mapError .fault
  match given.missing f with
  | [] => return given
  | arguments => throw (.fault (.missing arguments))

end Form
end HostedRepo.CommandLine
