import HostedRepo.Command.Execute
import HostedRepo.CommandLine.Reading
import HostedRepo.Config.Load

/-!
# Invocations

The program's own form and those of its subcommands, and the invocation that arguments stand for.
Every subcommand also takes the shared options; one given after its name goes before one given in
front of it.
-/

namespace HostedRepo.CommandLine

def programName : String := "ghrepo"

def versionText : String := "0.1.0"

def about : String :=
  "Read files and archives from GitHub repositories and commit changes to them"

/-! Options -/

/-- An option with one letter and a value. -/
def valued (long valueName : String) (short : Option Char) : Opt :=
  { long := long, short := short, valueName := some valueName }

def configOption : Opt := valued "config" "CONFIG" (some 'c')

def tokenOption : Opt := valued "token" "TOKEN" none

def verboseFlag : Opt := { long := "verbose", short := some 'v' }

def helpFlag : Opt := { long := "help", short := some 'h', notice := some .help }

def versionFlag : Opt := { long := "version", short := some 'V', notice := some .version }

/-- The options that may stand before and after the name of a subcommand. -/
def sharedOptions : List Opt := [configOption, tokenOption, verboseFlag]

def refOption : Opt := valued "ref" "REFERENCE" none

/-- The option for a path to write to. -/
def outputOption : Opt := { valued "output" "OUTPUT" (some 'o') with nonempty := true }

def branchOption : Opt := { valued "branch" "BRANCH" (some 'b') with required := true }

def messageOption : Opt := { valued "message" "MESSAGE" (some 'm') with required := true }

/-! Subcommands -/

/-- A subcommand: its form and the command that arguments of this form stand for. -/
structure Subcommand where
  name : String
  form : Form
  command? : Given → Option Command

/-- A subcommand with its own options and the shared ones. -/
def subcommand (name : String) (options : List Opt) (operands : List Operand)
    (command? : Given → Option Command) : Subcommand :=
  ⟨name, { options := options ++ sharedOptions ++ [helpFlag], operands := operands }, command?⟩

def repoOperands : List Operand := [{ name := "OWNER" }, { name := "REPO" }]

def pathOperand : Operand := { name := "PATH" }

/-- Why a text is no file mapping. -/
def mappingFault? (text : String) : Option String :=
  match Mapping.parse text with
  | .ok _ => none
  | .error f => some f.message

def filesOperand : Operand := { name := "FILES", many := true, fault? := mappingFault? }

def foldersOperand : Operand := { name := "FOLDERS", many := true }

/-- The given reference; without one it is the default branch, which has no name. -/
def reference (g : Given) : String := (g.value? "ref").getD ""

def subcommands : List Subcommand := [
  subcommand "parse-url" [] [{ name := "URL" }] fun g =>
    match g.operands with
    | [url] => some (.parseUrl url)
    | _ => none,
  subcommand "get" [refOption, outputOption] (repoOperands ++ [pathOperand]) fun g =>
    match g.operands with
    | [owner, repo, path] => some (.get ⟨owner, repo⟩ path (reference g) (g.value? "output"))
    | _ => none,
  subcommand "archive" [refOption, { outputOption with required := true }] repoOperands fun g =>
    match g.operands, g.value? "output" with
    | [owner, repo], some output => some (.archive ⟨owner, repo⟩ (reference g) output)
    | _, _ => none,
  subcommand "sha" [refOption] (repoOperands ++ [pathOperand]) fun g =>
    match g.operands with
    | [owner, repo, path] => some (.sha ⟨owner, repo⟩ path (reference g))
    | _ => none,
  subcommand "push" [branchOption, messageOption] (repoOperands ++ [filesOperand]) fun g =>
    match g.operands, g.value? "branch", g.value? "message" with
    | owner :: repo :: files, some branch, some message =>
      (files.mapM fun text => (Mapping.parse text).toOption).map
        (.push ⟨owner, repo⟩ branch message)
    | _, _, _ => none,
  subcommand "rm-dirs" [] (repoOperands ++ [foldersOperand]) fun g =>
    match g.operands with
    | owner :: repo :: folders => some (.removeDirs ⟨owner, repo⟩ folders)
    | _ => none]

/-- The subcommand that shows help on others. -/
def helpCommand : String := "help"

def commandNames : List String := subcommands.map Subcommand.name ++ [helpCommand]

def programForm : Form :=
  { options := sharedOptions ++ [helpFlag, versionFlag], commands := commandNames }

/-! Invocations -/

structure Invocation where
  configFile : String := Config.defaultFile
  token : Option String := none
  verbose : Bool := false
  command : Command
  deriving DecidableEq, Repr

namespace Invocation

/-- The local paths that an invocation names. -/
def paths (i : Invocation) : List String :=
  i.configFile :: match i.command with
    | .get _ _ _ (some output) => [output]
    | .archive _ _ output => [output]
    | .push _ _ _ mappings => mappings.map Mapping.source
    | _ => []

/-- The value of a shared option, given before or after the name of the subcommand. -/
def shared (before after : Given) (o : Opt) : Option String :=
  (after.value? o.long).or (before.value? o.long)

/-- How a request for help ends: only the name of one subcommand may follow. -/
def helpEnding : List String → Ending
  | [] => .notice .help
  | name :: rest =>
    if !commandNames.contains name then .fault (.unknownCommand name)
    else match rest with
      | [] => .notice .help
      | surplus :: _ => .fault (.unknownCommand surplus)

/-- Reads the arguments of a subcommand. -/
def readSubcommand (name : String) (arguments : List String) : Except Ending (Given × Command) :=
  match subcommands.find? (·.name = name) with
  | none => .error (.fault (.unknownCommand name))
  | some s => do
    let given ← s.form.readAll arguments
    match s.command? given with
    | some command => return (given, command)
    | none => throw (.fault (.missing (s.form.operands.map Operand.shown)))

/-- Reads the arguments of the program. Faults behind the name of a subcommand come first. -/
def ofArguments (arguments : List String) : Except Ending Invocation := do
  match ← programForm.read arguments {} with
  | (p, none) =>
    let given ← p.settled.mapError .fault
    if given.options.isEmpty then throw .bare
    else throw (.fault (.noCommand programName commandNames))
  | (p, some (name, rest)) =>
    if name = helpCommand then throw (helpEnding rest)
    else
      let (after, command) ← readSubcommand name rest
      let before ← p.settled.mapError .fault
      let shared := shared before after
      return {
        configFile := (shared configOption).getD Config.defaultFile
        token := shared tokenOption
        verbose := (shared verboseFlag).isSome
        command := command }

end Invocation
end HostedRepo.CommandLine
